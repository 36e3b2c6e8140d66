import Mathlib.Data.List.TakeWhile
import Mathlib.Logic.Function.Iterate
import MixedDomain.Proofs.Attribute.Ledger
import MixedDomain.Proofs.Sequence

/-!
# What calls amount to

## Histories

The descriptions that are built can be read off the calls alone.  An attribute has its
place by the first call that declares it.  Of its checks of discarding and its
conversions the last one counts, of its new names the first one, since later ones are
refused, and all checks of rejecting count.  Checks of fields count from the first
declaration on, since earlier ones are refused.

## Merging

Descriptions of two histories are merged without names that occur twice: what the second
one declares is taken from it, and all else from the first.
-/

namespace MixedDomain

/-!
# Histories
-/

namespace AttributeCall

def discard? : AttributeCall -> Option DiscardCheck
  | .discard check _ => some check
  | .combine policy _ => some policy.discard
  | _ => none

def reject? : AttributeCall -> Option RejectCheck
  | .reject check _ => some check
  | .combine policy _ => some policy.reject
  | _ => none

def conversion? : AttributeCall -> Option Conversion
  | .convert conversion _ => some conversion
  | .combine policy _ => some policy.conversion
  | _ => none

def newName? : AttributeCall -> Option String
  | .rename _ newName => some newName
  | _ => none

def fieldCheck? (name : String) : AttributeCall -> Option (String × RejectCheck)
  | .rejectField other field check => if other = name then some (field, check) else none
  | _ => none

theorem fieldCheck?_of_mem_names {call : AttributeCall} {name : String} (h : name ∈ call.names) :
    call.fieldCheck? name = none := by
  cases call with
  | rejectField => exact absurd h List.not_mem_nil
  | _ => rfl

/-- What calls about one attribute amount to, apart from checks of fields. -/
def summary (name : String) (changes : List AttributeCall) : AttributeDescription where
  name := name
  discard? := (changes.filterMap discard?).getLast?
  rejects := changes.filterMap reject?
  conversion? := (changes.filterMap conversion?).getLast?
  newName? := (changes.filterMap newName?).head?

end AttributeCall

namespace AttributeHistory

/-- The attributes that calls declare, in the order in which they are declared first. -/
def attributes (calls : AttributeHistory) : List String :=
  (calls.flatMap AttributeCall.names).eraseDups

def about (name : String) (calls : AttributeHistory) : List AttributeCall :=
  calls.flatMap fun call => List.replicate (call.names.count name) call

def fieldChecks (name : String) (calls : AttributeHistory) : List (String × RejectCheck) :=
  (calls.dropWhile fun call => !call.names.contains name).filterMap (AttributeCall.fieldCheck? name)

/-- What calls amount to for an attribute: the checks of fields become one check after all
others. -/
def described (calls : AttributeHistory) (name : String) : AttributeDescription :=
  let d := AttributeCall.summary name (calls.about name)
  match calls.fieldChecks name with
  | [] => d
  | checks => { d with rejects := d.rejects ++ [.fields checks] }

/-- Why a call is refused after others, if it is: the attribute has a new name, or is not
declared. -/
def refusal? (path : String) (calls : AttributeHistory) : AttributeCall -> Option DescriptionError
  | .rename name _ =>
      ((calls.about name).filterMap AttributeCall.newName?).head?.map
        (DescriptionError.duplicateRename path name)
  | .rejectField name field _ =>
      if name ∈ calls.attributes then none else some (.unknownField path name field)
  | _ => none

variable {calls : AttributeHistory} {call : AttributeCall} {name : String}

theorem mem_attributes_iff :
    name ∈ calls.attributes ↔ name ∈ calls.flatMap AttributeCall.names := by
  rw [attributes, List.mem_eraseDups]

theorem nodup_attributes (calls : AttributeHistory) : calls.attributes.Nodup :=
  List.nodup_eraseDups _

theorem mem_attributes_of_about (h : call ∈ calls.about name) : name ∈ calls.attributes := by
  rcases List.mem_flatMap.mp h with ⟨declaring, hdeclaring, hmem⟩
  have hcount := Nat.pos_of_ne_zero (List.mem_replicate.mp hmem).1
  exact mem_attributes_iff.mpr
    (List.mem_flatMap.mpr ⟨declaring, hdeclaring, List.count_pos_iff.mp hcount⟩)

/-- A call about attributes that are declared already does not change their order. -/
theorem attributes_append_of_subset (h : ∀ name ∈ call.names, name ∈ calls.attributes) :
    attributes (calls ++ [call]) = calls.attributes := by
  have hnone : call.names.removeAll (calls.flatMap AttributeCall.names) = [] := by
    refine List.filter_eq_nil_iff.mpr fun name hname => ?_
    simpa using List.mem_flatMap.mp (mem_attributes_iff.mp (h name hname))
  rw [attributes, List.flatMap_append, List.flatMap_singleton, List.eraseDups_append, hnone,
    List.eraseDups_nil, List.append_nil, attributes]

theorem about_append (calls : AttributeHistory) (call : AttributeCall) (name : String) :
    about name (calls ++ [call]) =
      calls.about name ++ List.replicate (call.names.count name) call := by
  rw [about, List.flatMap_append, List.flatMap_singleton, about]

theorem dropWhile_eq_nil_iff (calls : AttributeHistory) (name : String) :
    (calls.dropWhile fun call => !call.names.contains name) = [] ↔ name ∉ calls.attributes := by
  rw [List.dropWhile_eq_nil_iff, mem_attributes_iff, List.mem_flatMap]
  simp

theorem fieldChecks_of_not_mem (h : name ∉ calls.attributes) : calls.fieldChecks name = [] := by
  rw [fieldChecks, (dropWhile_eq_nil_iff calls name).mpr h, List.filterMap_nil]

theorem fieldChecks_append (calls : AttributeHistory) (call : AttributeCall) (name : String) :
    fieldChecks name (calls ++ [call]) = calls.fieldChecks name ++
      if name ∈ calls.attributes then (call.fieldCheck? name).toList else [] := by
  by_cases hname : name ∈ calls.attributes
  · have hpassed := mt (dropWhile_eq_nil_iff calls name).mp (not_not.mpr hname)
    rw [if_pos hname, fieldChecks, List.dropWhile_append, if_neg (mt List.isEmpty_iff.mp hpassed),
      List.filterMap_append, fieldChecks]
    cases h : call.fieldCheck? name <;> simp [h]
  · have hpassed := (dropWhile_eq_nil_iff calls name).mpr hname
    rw [if_neg hname, fieldChecks_of_not_mem hname, fieldChecks, List.dropWhile_append, hpassed]
    by_cases hcall : name ∈ call.names
    · simp [hcall, AttributeCall.fieldCheck?_of_mem_names hcall]
    · simp [hcall]

end AttributeHistory

/-!
# One call
-/

namespace AttributeCall

theorem change_summary (call : AttributeCall) {changes : List AttributeCall}
    (hnew : call.newName? = none ∨ changes.filterMap newName? = []) (name : String) :
    call.change (summary name changes) = summary name (changes ++ [call]) := by
  cases call with
  | rename other newName =>
      have hnone : changes.filterMap newName? = [] := hnew.resolve_left nofun
      simp [change, summary, hnone, discard?, reject?, conversion?, newName?]
  | _ => simp [change, summary, discard?, reject?, conversion?, newName?]

theorem iterate_change_summary {call : AttributeCall} (hnew : call.newName? = none) (name : String)
    (changes : List AttributeCall) (n : Nat) :
    call.change^[n] (summary name changes) = summary name (changes ++ List.replicate n call) := by
  induction n generalizing changes with
  | zero => simp
  | succ n ih =>
      rw [Function.iterate_succ_apply, change_summary call (Or.inl hnew), ih, List.replicate_succ,
        List.append_assoc, List.singleton_append]

theorem summary_append_rename {changes : List AttributeCall} {name newName existing : String}
    (hnew : (changes.filterMap newName?).head? = some existing) :
    summary name (changes ++ [.rename name newName]) = summary name changes := by
  simp [summary, hnew, discard?, reject?, conversion?, newName?]

end AttributeCall

/-!
# Declarations
-/

namespace AttributeDeclarations

variable {ds : AttributeDeclarations} {calls : AttributeHistory}

theorem current_modify (name other : String) (f : AttributeDeclaration -> AttributeDeclaration)
    (ds : AttributeDeclarations) : (ds.modify name f).current other =
      if name = other then f (ds.current name) else ds.current other := by
  rw [current, get?_modify]
  split <;> rfl

theorem current_describeAll (names : List String) (f : AttributeDescription -> AttributeDescription)
    (ds : AttributeDeclarations) (name : String) :
    (ds.describeAll names f).current name =
      ⟨f^[names.count name] (ds.current name).description, (ds.current name).fields⟩ := by
  induction names generalizing ds with
  | nil => rfl
  | cons first rest ih =>
      -- The induction is over all declarations, since the first name changes them for the rest.
      rw [describeAll, List.foldl_cons, ← describeAll, ih, current_modify]
      by_cases hfirst : first = name
      · subst hfirst
        simp [Function.iterate_succ_apply]
      · simp [hfirst]

theorem keys_describeAll {items : List String}
    (hkeys : Entries.keys ds.declared = items.eraseDups) (names : List String)
    (f : AttributeDescription -> AttributeDescription) :
    Entries.keys (ds.describeAll names f).declared = (items ++ names).eraseDups := by
  induction names generalizing ds items with
  | nil =>
      rw [List.append_nil]
      exact hkeys
  | cons first rest ih =>
      rw [describeAll, List.foldl_cons, ← describeAll, List.append_cons]
      apply ih
      rw [keys_modify, hkeys, List.eraseDups_append_singleton]
      exact if_congr List.mem_eraseDups rfl rfl

theorem path_describeAll (names : List String) (f : AttributeDescription -> AttributeDescription)
    (ds : AttributeDeclarations) : (ds.describeAll names f).path = ds.path := by
  induction names generalizing ds with
  | nil => rfl
  | cons first rest ih => exact ih _

/-- Whether declarations at a path are what calls amount to. -/
structure Records (path : String) (calls : AttributeHistory) (ds : AttributeDeclarations) :
    Prop where
  path_eq : ds.path = path
  keys : Entries.keys ds.declared = calls.attributes
  current : forall name, ds.current name =
    ⟨AttributeCall.summary name (calls.about name), calls.fieldChecks name⟩

theorem records_empty (path : String) : Records path [] (empty path) where
  path_eq := rfl
  keys := rfl
  current _ := rfl

variable {path : String}

theorem Records.newName?_eq (h : Records path calls ds) (name : String) :
    ds.newName? name = ((calls.about name).filterMap AttributeCall.newName?).head? := by
  have hcurrent : ds.newName? name = (ds.current name).description.newName? := by
    rw [newName?, AttributeDeclarations.current]
    cases Entries.get? name ds.declared <;> rfl
  rw [hcurrent, h.current]
  rfl

theorem Records.contains_iff (h : Records path calls ds) (name : String) :
    Entries.contains name ds.declared = true ↔ name ∈ calls.attributes := by
  rw [Entries.contains, Entries.isSome_get?_iff, h.keys]

theorem Records.describeAll (h : Records path calls ds) (call : AttributeCall)
    (hchange : forall name,
      call.change^[call.names.count name] (AttributeCall.summary name (calls.about name)) =
        AttributeCall.summary name
          (calls.about name ++ List.replicate (call.names.count name) call))
    (hfield : forall name, call.fieldCheck? name = none) :
    Records path (calls ++ [call]) (ds.describeAll call.names call.change) := by
  constructor
  case path_eq => exact (path_describeAll call.names call.change ds).trans h.path_eq
  case keys =>
      rw [AttributeHistory.attributes, List.flatMap_append, List.flatMap_singleton]
      exact keys_describeAll h.keys call.names call.change
  case current =>
      intro name
      rw [current_describeAll, h.current, hchange, AttributeHistory.about_append,
        AttributeHistory.fieldChecks_append, hfield]
      simp

/-- A call that neither declares an attribute nor counts for a description adds checks of fields,
or nothing. -/
theorem Records.append {ds' : AttributeDeclarations} (h : Records path calls ds)
    {call : AttributeCall} (hnames : ∀ name ∈ call.names, name ∈ calls.attributes)
    (hsummary : forall name,
      AttributeCall.summary name (calls.about name ++ List.replicate (call.names.count name) call) =
        AttributeCall.summary name (calls.about name))
    (hpath : ds'.path = ds.path) (hkeys : Entries.keys ds'.declared = Entries.keys ds.declared)
    (hcurrent : forall name, ds'.current name = ⟨(ds.current name).description,
      (ds.current name).fields ++
        if name ∈ calls.attributes then (call.fieldCheck? name).toList else []⟩) :
    Records path (calls ++ [call]) ds' := by
  constructor
  case path_eq => exact hpath.trans h.path_eq
  case keys => rw [hkeys, h.keys, AttributeHistory.attributes_append_of_subset hnames]
  case current =>
      intro name
      rw [hcurrent, h.current, AttributeHistory.about_append, hsummary,
        AttributeHistory.fieldChecks_append]

/-- Whether a call is refused for a reason that the calls before give, or declares something, and in
both cases counts among the calls. -/
inductive FollowsFrom (path : String) (calls : AttributeHistory) (ds : AttributeDeclarations)
    (call : AttributeCall) : Prop where
  | accepted {ds' : AttributeDeclarations} (hallowed : calls.refusal? path call = none)
      (hds : call.declareIn ds = .ok ds') (hrecords : Records path (calls ++ [call]) ds')
  | refused {e : DescriptionError} (hrefusal : calls.refusal? path call = some e)
      (hds : call.declareIn ds = .error e) (hrecords : Records path (calls ++ [call]) ds)

theorem Records.followsFrom_rename (h : Records path calls ds) (name newName : String) :
    FollowsFrom path calls ds (.rename name newName) := by
  cases hnew : ((calls.about name).filterMap AttributeCall.newName?).head? with
  | some existing =>
      refine .refused (e := .duplicateRename path name existing) ?_ ?_ ?_
      · rw [AttributeHistory.refusal?, hnew]
        rfl
      · rw [AttributeCall.declareIn, AttributeDeclarations.rename, h.newName?_eq, hnew, h.path_eq]
      · refine h.append ?_ ?_ rfl rfl (by simp [AttributeCall.fieldCheck?])
        · intro other hother
          cases List.mem_singleton.mp hother
          rcases List.mem_filterMap.mp (List.mem_of_mem_head? hnew) with ⟨call, hcall, _⟩
          exact AttributeHistory.mem_attributes_of_about hcall
        · intro other
          by_cases hother : name = other
          · subst hother
            simpa [AttributeCall.names] using AttributeCall.summary_append_rename hnew
          · simp [AttributeCall.names, hother]
  | none =>
      refine .accepted ?_ ?_ (h.describeAll (.rename name newName) ?_ fun _ => rfl)
      · rw [AttributeHistory.refusal?, hnew]
        rfl
      · rw [AttributeCall.declareIn, AttributeDeclarations.rename, h.newName?_eq, hnew]
        rfl
      · intro other
        by_cases hother : name = other
        · subst hother
          have hfirst := List.head?_eq_none_iff.mp hnew
          have hchange := AttributeCall.change_summary (.rename name newName) (Or.inr hfirst) name
          simpa [AttributeCall.names] using hchange
        · simp [AttributeCall.names, hother]

theorem Records.followsFrom_rejectField (h : Records path calls ds) (name field : String)
    (check : RejectCheck) : FollowsFrom path calls ds (.rejectField name field check) := by
  have hnames : ∀ other ∈ (AttributeCall.rejectField name field check).names,
      other ∈ calls.attributes := fun _ hmem => absurd hmem List.not_mem_nil
  by_cases hname : name ∈ calls.attributes
  · refine .accepted (if_pos hname) (if_pos ((h.contains_iff name).mpr hname)) ?_
    refine h.append hnames (by simp [AttributeCall.names]) rfl ?_ ?_
    · rw [keys_modify, if_pos (h.keys ▸ hname)]
    · intro other
      rw [current_modify]
      by_cases hother : name = other
      · subst hother
        simp [hname, AttributeCall.fieldCheck?]
      · simp [hother, AttributeCall.fieldCheck?]
  · refine .refused (e := .unknownField path name field) (if_neg hname) ?_ ?_
    · rw [← h.path_eq]
      exact if_neg (mt (h.contains_iff name).mp hname)
    · refine h.append hnames (by simp [AttributeCall.names]) rfl rfl ?_
      intro other
      by_cases hother : name = other
      · subst hother
        simp [hname]
      · simp [hother, AttributeCall.fieldCheck?]

theorem Records.followsFrom (h : Records path calls ds) (call : AttributeCall) :
    FollowsFrom path calls ds call := by
  cases call with
  | rename name newName => exact h.followsFrom_rename name newName
  | rejectField name field check => exact h.followsFrom_rejectField name field check
  | _ =>
      refine .accepted rfl rfl (h.describeAll _ ?_ fun _ => rfl)
      exact fun name => AttributeCall.iterate_change_summary rfl name _ _

/-!
# All calls
-/

theorem Records.after (h : Records path calls ds) (later : AttributeHistory) :
    Records path (calls ++ later) (ds.after later) := by
  induction later generalizing calls ds with
  | nil =>
      rw [List.append_nil]
      exact h
  | cons call rest ih =>
      rw [List.append_cons, AttributeDeclarations.after, List.foldl_cons]
      apply ih
      cases h.followsFrom call with
      | accepted _ hds hrecords =>
          rw [hds]
          exact hrecords
      | refused _ hds hrecords =>
          rw [hds]
          exact hrecords

theorem records_after (path : String) (calls : AttributeHistory) :
    Records path calls ((empty path).after calls) :=
  (records_empty path).after calls

theorem Records.describe_eq (h : Records path calls ds) :
    ds.describe = calls.attributes.map calls.described := by
  have hdistinct : Entries.Distinct ds.declared := by
    rw [Entries.Distinct, h.keys]
    exact calls.nodup_attributes
  rw [describe_eq_map hdistinct, h.keys]
  apply List.map_congr_left
  intro name _
  rw [h.current, AttributeHistory.described, AttributeDeclaration.describe]
  cases calls.fieldChecks name <;> rfl

end AttributeDeclarations

/-!
# Merging
-/

namespace AttributeDescription

variable {base overriding : List AttributeDescription}

theorem nodup_merge (hbase : (base.map name).Nodup) (hoverriding : (overriding.map name).Nodup) :
    ((merge base overriding).map name).Nodup := by
  rw [merge, List.map_append, List.nodup_append]
  refine ⟨hbase.sublist (List.filter_sublist.map name), hoverriding, ?_⟩
  intro kept hkept new hnew
  rcases List.mem_map.mp hkept with ⟨b, hb, rfl⟩
  rcases List.mem_map.mp hnew with ⟨o, ho, rfl⟩
  have hother := List.all_eq_true.mp (List.mem_filter.mp hb).2 o ho
  exact Ne.symm (bne_iff_ne.mp hother)

/-- What is declared anew is found there, and all else where it was. -/
theorem find?_merge (name : String) (base overriding : List AttributeDescription) :
    find? name (merge base overriding) = (find? name overriding).or (find? name base) := by
  rw [find?, merge, List.find?_append, ← find?, ← find?]
  cases hnew : find? name overriding with
  | some o =>
      have ho := List.mem_of_find?_eq_some hnew
      have hname := List.find?_some hnew
      have hgone : find? name (base.filter fun b => overriding.all fun o => o.name != b.name) =
          none := by
        refine List.find?_eq_none.mpr fun b hb heq => ?_
        have hother := List.all_eq_true.mp (List.mem_filter.mp hb).2 o ho
        exact bne_iff_ne.mp hother ((beq_iff_eq.mp hname).trans (beq_iff_eq.mp heq).symm)
      rw [hgone, Option.none_or, Option.some_or]
  | none =>
      rw [Option.or_none, Option.none_or, find?, find?, List.find?_filter]
      congr 1
      funext b
      -- A description that is looked for has a name that is not declared anew.
      by_cases hb : b.name = name
      · have hkept : ∀ o ∈ overriding, o.name ≠ name := fun o ho heq =>
          List.find?_eq_none.mp hnew o ho (beq_iff_eq.mpr heq)
        simpa [hb] using hkept
      · simp [hb]

theorem find?_map {f : String -> AttributeDescription} (hf : forall name, (f name).name = name)
    (names : List String) (name : String) :
    find? name (names.map f) = if name ∈ names then some (f name) else none := by
  induction names with
  | nil => rfl
  | cons first rest ih =>
      rw [find?] at ih
      rw [List.map_cons, find?, List.find?_cons, hf, ih]
      by_cases hfirst : first = name
      · simp [hfirst]
      · rw [beq_eq_false_iff_ne.mpr hfirst]
        simp [Ne.symm hfirst]

end AttributeDescription

namespace AttributeHistory

variable {calls : AttributeHistory}

theorem name_described (calls : AttributeHistory) (name : String) :
    (calls.described name).name = name := by
  unfold described
  split <;> rfl

theorem find?_described (calls : AttributeHistory) (name : String) :
    AttributeDescription.find? name (calls.attributes.map calls.described) =
      if name ∈ calls.attributes then some (calls.described name) else none :=
  AttributeDescription.find?_map calls.name_described calls.attributes name

theorem map_name_described (calls : AttributeHistory) :
    (calls.attributes.map calls.described).map AttributeDescription.name = calls.attributes := by
  rw [List.map_map]
  exact (List.map_congr_left fun name _ => calls.name_described name).trans
    (List.map_id' calls.attributes)

end AttributeHistory

/-!
# Ledgers
-/

namespace AttributeLedger

/-- Whether a ledger is what calls amount to: there is one description for each attribute in the
order of first declaration, and a call is refused, and then changes nothing, just for the reasons
that the calls before give. -/
structure AmountsTo (l : AttributeLedger) (path : String) (calls : AttributeHistory) : Prop where
  build_eq : l.build = calls.attributes.map calls.described
  distinct : (l.build.map AttributeDescription.name).Nodup
  answers : forall call,
    (exists e, calls.refusal? path call = some e ∧ l.answer call = (.error e, l)) ∨
      (calls.refusal? path call = none ∧ (l.answer call).1 = .ok ())

theorem amountsTo_after (path : String) (calls : AttributeHistory) :
    ((empty path).after calls).AmountsTo path calls := by
  have hkeeps := keeps_after (keeps_empty path) calls
  have hrecords := AttributeDeclarations.records_after path calls
  have hbuild := hkeeps.build_eq_describe.trans hrecords.describe_eq
  constructor
  case build_eq => exact hbuild
  case distinct =>
      rw [hbuild, calls.map_name_described]
      exact calls.nodup_attributes
  case answers =>
      intro call
      cases hkeeps.answersAlike call with
      | accepted hl hds =>
          cases hrecords.followsFrom call with
          | accepted hallowed => exact Or.inr ⟨hallowed, by rw [hl]⟩
          | refused _ hds' => exact absurd (hds.symm.trans hds') nofun
      | refused hl hds =>
          cases hrecords.followsFrom call with
          | accepted _ hds' => exact absurd (hds.symm.trans hds') nofun
          | refused hrefusal hds' =>
              cases hds.symm.trans hds'
              exact Or.inl ⟨_, hrefusal, hl⟩

/-- Whatever calls are made, refused ones among them, what is built is what they amount to.  The
same is built, and the next call is answered alike, when the declarations are kept in one list.
Merging the descriptions of two histories gives each attribute one description, that of the second
one wherever it declares the attribute. -/
theorem build_after (path : String) (calls : AttributeHistory) :
    ((empty path).after calls).AmountsTo path calls ∧
      ((empty path).after calls).build =
        ((AttributeDeclarations.empty path).after calls).describe ∧
      (forall call, (((empty path).after calls).answer call).1 =
        (call.declareIn ((AttributeDeclarations.empty path).after calls)).map fun _ => ()) ∧
      forall (path' : String) (overriding : AttributeHistory),
        let merged := AttributeDescription.merge ((empty path).after calls).build
          ((empty path').after overriding).build
        (merged.map AttributeDescription.name).Nodup ∧
          forall name, AttributeDescription.find? name merged =
            if name ∈ overriding.attributes then some (overriding.described name)
            else if name ∈ calls.attributes then some (calls.described name)
            else none := by
  have hcalls := amountsTo_after path calls
  have hkeeps := keeps_after (keeps_empty path) calls
  refine ⟨hcalls, hkeeps.build_eq_describe, fun call => (hkeeps.answersAlike call).answer_eq, ?_⟩
  intro path' overriding merged
  have hoverriding := amountsTo_after path' overriding
  refine ⟨AttributeDescription.nodup_merge hcalls.distinct hoverriding.distinct, ?_⟩
  intro name
  rw [AttributeDescription.find?_merge, hcalls.build_eq, hoverriding.build_eq,
    AttributeHistory.find?_described, AttributeHistory.find?_described]
  by_cases hname : name ∈ overriding.attributes
  · rw [if_pos hname, if_pos hname, Option.some_or]
  · rw [if_neg hname, if_neg hname, Option.none_or]

end AttributeLedger
end MixedDomain
