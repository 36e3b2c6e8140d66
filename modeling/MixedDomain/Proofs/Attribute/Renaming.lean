import Mathlib.Data.Finset.Card
import MixedDomain.Proofs.Attribute.BuiltIn
import MixedDomain.Proofs.Entries
import MixedDomain.Proofs.Sequence
import MixedDomain.Rule

/-!
# Renaming attributes

## One after the other

Attributes are renamed one after the other, in the order of their descriptions.
Where this leads a name is found by following the renamings: an attribute that is
moved to the name of one with a later description is moved again.

## At once

A description says which name its attribute has on the target.  Renaming gives all
attributes these names exactly when following the renamings leads there, which is
so when no attribute gets the name of one that is renamed later.
-/

namespace MixedDomain
namespace AttributeDescription

open TransformM

variable {d : AttributeDescription} {ds : List AttributeDescription}
  {entries before after : List (String × Value)} {a : Address} {c c' : Context}

def nameOnTarget (ds : List AttributeDescription) (key : String) : String :=
  ((find? key ds).bind newName?).getD key

/-- Whether neither name of an attribute is reserved. -/
structure Spares (reserved : List String) (d : AttributeDescription) : Prop where
  name : d.name ∉ reserved
  newName : ∀ newName ∈ d.newName?, newName ∉ reserved

instance (reserved : List String) (d : AttributeDescription) : Decidable (d.Spares reserved) :=
  decidable_of_iff (d.name ∉ reserved ∧ ∀ newName ∈ d.newName?, newName ∉ reserved)
    ⟨fun h => ⟨h.1, h.2⟩, fun h => ⟨h.name, h.newName⟩⟩

/-- The name that is left by one renaming. -/
def renamed (d : AttributeDescription) (key : String) : String :=
  if key = d.name then d.newName?.getD key else key

def nameInOrder : List AttributeDescription -> String -> String
  | [], key => key
  | d :: rest, key => nameInOrder rest (d.renamed key)

def renameEntries : List AttributeDescription -> List (String × Value) -> List (String × Value)
  | [], entries => entries
  | d :: rest, entries =>
      match d.newName? with
      | some newName => renameEntries rest (Entries.move d.name newName entries)
      | none => renameEntries rest entries

theorem renameAll_object (ds : List AttributeDescription) (entries : List (String × Value)) :
    renameAll ds (.object entries) = .ok (.object (renameEntries ds entries)) := by
  induction ds generalizing entries with
  | nil =>
      rfl
  | cons d rest ih =>
      cases hnew : d.newName? with
      | none => simp only [renameAll, renameEntries, hnew, ih]
      | some newName =>
          have hmove : moveEntry (.object entries) d.name newName =
              .ok (.object (Entries.move d.name newName entries)) := by
            unfold moveEntry Entries.move
            cases hget : Entries.get? d.name entries <;> simp [Value.entry?, hget, Value.erase,
              Value.set]
          simp only [renameAll, renameEntries, hnew, hmove]
          exact ih _

/-!
# Following the renamings
-/

theorem renamed_of_newName? {newName : String} (h : d.newName? = some newName) :
    d.renamed = fun key => if key = d.name then newName else key := by
  funext key
  simp [renamed, h]

theorem renamed_of_none (h : d.newName? = none) : d.renamed = id := by
  funext key
  simp [renamed, h]

theorem mem_keys_renameEntries (h : Entries.Distinct entries) {key : String} :
    key ∈ Entries.keys (renameEntries ds entries) ↔
      ∃ k ∈ Entries.keys entries, nameInOrder ds k = key := by
  induction ds generalizing entries with
  | nil =>
      simp [renameEntries, nameInOrder]
  | cons d rest ih =>
      cases hnew : d.newName? with
      | none => simp only [renameEntries, nameInOrder, hnew, renamed_of_none hnew, id, ih h]
      | some newName =>
          simp only [renameEntries, nameInOrder, hnew, renamed_of_newName? hnew,
            ih (Entries.distinct_move h d.name newName), Entries.mem_keys_move h]
          constructor
          · rintro ⟨_, ⟨k, hk, rfl⟩, hkey⟩
            exact ⟨k, hk, hkey⟩
          · rintro ⟨k, hk, hkey⟩
            exact ⟨_, ⟨k, hk, rfl⟩, hkey⟩

theorem renamesBy_nameInOrder (h : Entries.Distinct entries)
    (hinj : Set.InjOn (nameInOrder ds) {key | key ∈ Entries.keys entries}) :
    Entries.RenamesBy (nameInOrder ds) entries (renameEntries ds entries) := by
  induction ds generalizing entries with
  | nil =>
      exact ⟨fun _ _ => rfl, fun key hkey => ⟨key, hkey, rfl⟩⟩
  | cons d rest ih =>
      cases hnew : d.newName? with
      | none =>
          have hsame : nameInOrder (d :: rest) = nameInOrder rest := by
            funext key
            simp [nameInOrder, renamed_of_none hnew]
          rw [hsame] at hinj ⊢
          simp only [renameEntries, hnew]
          exact ih h hinj
      | some newName =>
          have hcomp : nameInOrder (d :: rest) = nameInOrder rest ∘ d.renamed := by
            rfl
          rw [hcomp, renamed_of_newName? hnew] at hinj ⊢
          simp only [renameEntries, hnew]
          apply (Entries.renamesBy_move h hinj.of_comp).comp
          apply ih (Entries.distinct_move h d.name newName)
          rintro _ hfirst _ hsecond heq
          rcases (Entries.mem_keys_move h).mp hfirst with ⟨k, hk, rfl⟩
          rcases (Entries.mem_keys_move h).mp hsecond with ⟨k', hk', rfl⟩
          rw [hinj hk hk' heq]

/-!
# Names on the target
-/

def Unchained (ds : List AttributeDescription) : Prop :=
  ds.Pairwise fun d later => later.newName?.isSome -> d.newName? ≠ some later.name

theorem nameOnTarget_cons_self (d : AttributeDescription) (rest : List AttributeDescription) :
    nameOnTarget (d :: rest) d.name = d.newName?.getD d.name := by
  simp [nameOnTarget, find?]

theorem nameOnTarget_cons_of_ne {key : String} (h : key ≠ d.name)
    (rest : List AttributeDescription) : nameOnTarget (d :: rest) key = nameOnTarget rest key := by
  simp [nameOnTarget, find?, h.symm]

theorem nameOnTarget_eq_self {key : String}
    (h : ∀ d ∈ ds, d.name = key -> d.newName? = none) : nameOnTarget ds key = key := by
  unfold nameOnTarget
  cases hfind : find? key ds with
  | none => rfl
  | some d =>
      have hname : d.name = key := by
        simpa using List.find?_some hfind
      simp [h d (List.mem_of_find?_eq_some hfind) hname]

theorem nameInOrder_eq_nameOnTarget (hnames : (ds.map name).Nodup) (hchain : Unchained ds)
    (key : String) : nameInOrder ds key = nameOnTarget ds key := by
  induction ds generalizing key with
  | nil =>
      rfl
  | cons d rest ih =>
      rw [List.map_cons, List.nodup_cons] at hnames
      rcases List.pairwise_cons.mp hchain with ⟨hfirst, hrest⟩
      rw [nameInOrder, ih hnames.2 hrest]
      by_cases hkey : key = d.name
      · subst hkey
        rw [nameOnTarget_cons_self, renamed, if_pos rfl]
        apply nameOnTarget_eq_self
        intro later hlater hname
        cases hnew : d.newName? with
        | none =>
            rw [hnew, Option.getD_none] at hname
            exact absurd (hname ▸ List.mem_map_of_mem hlater) hnames.1
        | some newName =>
            rw [hnew, Option.getD_some] at hname
            by_contra hrenamed
            exact hfirst later hlater (Option.isSome_iff_ne_none.mpr hrenamed) (by rw [hnew, hname])
      · rw [nameOnTarget_cons_of_ne hkey, renamed, if_neg hkey]

theorem injOn_nameInOrder (h : Entries.Distinct entries)
    (hinj : Set.InjOn (nameOnTarget ds) {key | key ∈ Entries.keys entries})
    (hrenames : Entries.RenamesBy (nameOnTarget ds) entries (renameEntries ds entries)) :
    Set.InjOn (nameInOrder ds) {key | key ∈ Entries.keys entries} := by
  have hsame : (Entries.keys entries).toFinset.image (nameInOrder ds) =
      (Entries.keys entries).toFinset.image (nameOnTarget ds) := by
    ext key
    simp only [Finset.mem_image, List.mem_toFinset]
    constructor
    · intro hkey
      exact hrenames.only key ((mem_keys_renameEntries h).mpr hkey)
    · rintro ⟨k, hk, rfl⟩
      exact (mem_keys_renameEntries h).mp (hrenames.mem_keys hk)
  have hcoe : ((Entries.keys entries).toFinset : Set String) =
      {key | key ∈ Entries.keys entries} := by
    ext key
    simp
  have hcard := Finset.card_image_of_injOn (hcoe.symm ▸ hinj)
  rw [← hsame] at hcard
  exact hcoe ▸ Finset.card_image_iff.mp hcard

/-- Only if following the renamings leads to the names on the target, all values get there. -/
theorem nameInOrder_eq_of_renamesBy {names : List String} (hnodup : names.Nodup)
    (hinj : Set.InjOn (nameOnTarget ds) {key | key ∈ names})
    (hall : forall entries, Entries.keys entries = names ->
      Entries.RenamesBy (nameOnTarget ds) entries (renameEntries ds entries)) :
    ∀ key ∈ names, nameInOrder ds key = nameOnTarget ds key := by
  -- Values that tell where they come from.
  let labelled : List (String × Value) := names.map fun key => (key, .string key)
  have hkeys : Entries.keys labelled = names := by
    simp [labelled, Entries.keys, Function.comp_def]
  have hlabel : forall {key}, key ∈ names -> Entries.get? key labelled = some (.string key) := by
    intro key hkey
    rcases Option.isSome_iff_exists.mp (Entries.isSome_get?_iff.mpr (hkeys.symm ▸ hkey)) with
      ⟨v, hv⟩
    rcases List.mem_map.mp (Entries.mem_of_get? hv) with ⟨k, _, heq⟩
    cases heq
    exact hv
  have hdistinct : Entries.Distinct labelled := by
    rw [Entries.Distinct, hkeys]
    exact hnodup
  have hontarget := hall labelled hkeys
  have hinorder := renamesBy_nameInOrder hdistinct
    (injOn_nameInOrder hdistinct (hkeys.symm ▸ hinj) hontarget)
  rw [← hkeys]
  intro key hkey
  rcases hinorder.only _ (hontarget.mem_keys hkey) with ⟨k, hk, hplace⟩
  have hvalue := hinorder.moved k hk
  rw [hplace, hontarget.moved key hkey, hlabel (hkeys ▸ hkey), hlabel (hkeys ▸ hk)] at hvalue
  cases hvalue
  exact hplace

/-!
# The phases before

The values that are renamed are the ones that are left when attributes have been
discarded and converted.
-/

def convertedParameters (ds : List AttributeDescription) (a : Address) (operation : Value) :
    TransformM Value := do
  let c ← get
  let discarded := discardedParameters ds a operation c
  convertAll a (remaining ds discarded) (eraseAll discarded operation)

def convertedModel (ds : List AttributeDescription) (a : Address) (model : Value) :
    TransformM Value := do
  let c ← get
  let (reduced, discarded) := discardFromModel a c ds (model, [])
  let kept := remaining ds discarded
  let rejections := rejections kept a reduced c
  if !rejections.isEmpty then
    TransformM.warn (rejectedResourceMessage c.target a rejections.messages)
  convertAll a kept reduced

theorem transformModel_eq (ds : List AttributeDescription) (a : Address) (model : Value) :
    transformModel ds a model =
      convertedModel ds a model >>= fun converted => ofValue (renameAll ds converted) := by
  simp only [transformModel, convertedModel, bind_assoc]
  congr
  funext c
  split <;> simp

theorem operation?_of_run_transformParameters {operation : Value} {o : Outcome}
    (hrun : run (transformParameters ds a operation) c = (.ok o, c')) :
    exists converted sent mid, run (convertedParameters ds a operation) c = (.ok converted, mid) ∧
      renameAll ds converted = .ok sent ∧ o.operation? = some sent := by
  rw [transformParameters, run_get_bind] at hrun
  rcases run_bind_eq_ok hrun with ⟨converted, mid, hconvert, hafter⟩
  rcases run_bind_eq_ok hafter with ⟨sent, _, hrename, hend⟩
  rcases run_ofValue_eq_ok hrename with ⟨hsent, rfl⟩
  refine ⟨converted, sent, _, hconvert, hsent, ?_⟩
  split at hend
  · cases hend
    rfl
  · rcases run_bind_eq_ok hend with ⟨name, _, _, hread⟩
    rcases run_bind_eq_ok hread with ⟨_, _, _, hreject⟩
    cases hreject
    rfl

/-- A conversion sets its attribute, or leaves everything as it is. -/
theorem convertIn_eq_ok {v v' : Value} (hrun : run (d.convertIn a v) c = (.ok v', c')) :
    v' = v ∨ exists value, v.set d.name value = .ok v' := by
  unfold convertIn at hrun
  split at hrun
  · rcases run_bind_eq_ok hrun with ⟨value, _, _, hwrite⟩
    split at hwrite
    · exact Or.inr ⟨value, (run_ofValue_eq_ok hwrite).1⟩
    · cases hwrite
      exact Or.inl rfl
  · cases hrun
    exact Or.inl rfl

theorem convertAll_keeps {p : Value -> Prop} {v v' : Value}
    (hset : ∀ d ∈ ds, forall w value w', p w -> w.set d.name value = .ok w' -> p w') (h : p v)
    (hrun : run (convertAll a ds v) c = (.ok v', c')) : p v' := by
  induction ds generalizing v c with
  | nil =>
      cases hrun
      exact h
  | cons d rest ih =>
      rcases run_bind_eq_ok hrun with ⟨first, mid, hfirst, hrest⟩
      refine ih (fun other hother => hset other (List.mem_cons_of_mem d hother)) ?_ hrest
      rcases convertIn_eq_ok hfirst with rfl | ⟨value, hvalue⟩
      · exact h
      · exact hset d List.mem_cons_self _ _ _ h hvalue

section Keeping

variable {p : Value -> Prop} {v v' : Value}

theorem eraseAll_keeps (hp : Value.KeptByEdits p) (h : p v) (names : List String) :
    p (eraseAll names v) :=
  List.foldlRecOn (motive := p) names _ h fun _ hv name _ => hp.erase name hv

theorem discardFromModel_keeps (hp : Value.KeptByEdits p) {state : Value × List String}
    (h : p state.1) : p (discardFromModel a c ds state).1 := by
  induction ds generalizing state with
  | nil =>
      exact h
  | cons d rest ih =>
      unfold discardFromModel
      split
      · exact ih (hp.erase d.name h)
      · exact ih h

theorem convertedParameters_keeps (hp : Value.KeptByEdits p) (h : p v)
    (hrun : run (convertedParameters ds a v) c = (.ok v', c')) : p v' := by
  rw [convertedParameters, run_get_bind] at hrun
  exact convertAll_keeps (fun _ _ _ _ _ => hp.set) (eraseAll_keeps hp h _) hrun

theorem convertedModel_keeps (hp : Value.KeptByEdits p) (h : p v)
    (hrun : run (convertedModel ds a v) c = (.ok v', c')) : p v' := by
  have hreduced : p (discardFromModel a c ds (v, [])).1 := discardFromModel_keeps hp h
  rw [convertedModel, run_get_bind] at hrun
  dsimp only at hrun
  split at hrun
  · rcases run_bind_eq_ok hrun with ⟨_, _, _, hconvert⟩
    exact convertAll_keeps (fun _ _ _ _ _ => hp.set) hreduced hconvert
  · exact convertAll_keeps (fun _ _ _ _ _ => hp.set) hreduced hrun

theorem renameAll_keeps (hp : Value.KeptByEdits p) (h : p v) (hrename : renameAll ds v = .ok v') :
    p v' := by
  induction ds generalizing v with
  | nil =>
      cases hrename
      exact h
  | cons d rest ih =>
      unfold renameAll at hrename
      split at hrename
      · rcases Except.bind_eq_ok hrename with ⟨moved, hmove, hafter⟩
        refine ih ?_ hafter
        unfold moveEntry at hmove
        split at hmove
        · exact hp.set (hp.erase d.name h) hmove
        · cases hmove
          exact h
      · exact ih h hrename

theorem transformModel_keeps (hp : Value.KeptByEdits p) (h : p v)
    (hrun : run (transformModel ds a v) c = (.ok v', c')) : p v' := by
  rw [transformModel_eq] at hrun
  rcases run_bind_eq_ok hrun with ⟨converted, _, hconverted, hrename⟩
  exact renameAll_keeps hp (convertedModel_keeps hp h hconverted) (run_ofValue_eq_ok hrename).1

end Keeping

def IsDistinctObject (v : Value) : Prop :=
  exists entries, v = .object entries ∧ Entries.Distinct entries

theorem keptByEdits_isDistinctObject : Value.KeptByEdits IsDistinctObject := by
  constructor
  case erase =>
    rintro _ key ⟨entries, rfl, hdistinct⟩
    exact ⟨_, rfl, Entries.distinct_erase hdistinct key⟩
  case set =>
    rintro _ v' value key ⟨entries, rfl, hdistinct⟩ hset
    cases hset
    exact ⟨_, rfl, Entries.distinct_insert value hdistinct⟩

theorem isDistinctObject_of_convertedParameters {operation v : Value}
    (h : IsDistinctObject operation)
    (hrun : run (convertedParameters ds a operation) c = (.ok v, c')) : IsDistinctObject v :=
  convertedParameters_keeps keptByEdits_isDistinctObject h hrun

theorem isDistinctObject_of_convertedModel {model v : Value} (h : IsDistinctObject model)
    (hrun : run (convertedModel ds a model) c = (.ok v, c')) : IsDistinctObject v :=
  convertedModel_keeps keptByEdits_isDistinctObject h hrun

/-!
# Whole operations and models
-/

/-- Whether all values under some names get to the names on the target, and no other name is
there. -/
def RenamesAtOnce (ds : List AttributeDescription) (names : List String) : Prop :=
  forall entries, Entries.keys entries = names ->
    Entries.RenamesBy (nameOnTarget ds) entries (renameEntries ds entries)

theorem renamesBy_nameOnTarget (h : Entries.Distinct entries)
    (hinj : Set.InjOn (nameOnTarget ds) {key | key ∈ Entries.keys entries})
    (hagree : ∀ key ∈ Entries.keys entries, nameInOrder ds key = nameOnTarget ds key) :
    Entries.RenamesBy (nameOnTarget ds) entries (renameEntries ds entries) := by
  have hinorder := renamesBy_nameInOrder h (hinj.congr fun key hkey => (hagree key hkey).symm)
  constructor
  · intro key hkey
    rw [← hagree key hkey]
    exact hinorder.moved key hkey
  · intro key hkey
    rcases hinorder.only key hkey with ⟨k, hk, rfl⟩
    exact ⟨k, hk, (hagree k hk).symm⟩

/-- For attributes with distinct names: when the names on the target are distinct, an operation or a
model has after all phases the converted values under these names and nothing else, provided that
renaming in order leads there.  This is just the condition under which no value is lost or gets to
another name, and it holds when no attribute gets the name of one that is renamed later. -/
theorem renamesBy_of_run (hnames : (ds.map name).Nodup) (hentries : Entries.Distinct entries) :
    (forall o, run (transformParameters ds a (.object entries)) c = (.ok o, c') ->
      exists before after mid,
        run (convertedParameters ds a (.object entries)) c = (.ok (.object before), mid) ∧
        o.operation? = some (.object after) ∧
        (Set.InjOn (nameOnTarget ds) {key | key ∈ Entries.keys before} ->
          (∀ key ∈ Entries.keys before, nameInOrder ds key = nameOnTarget ds key) ->
          Entries.RenamesBy (nameOnTarget ds) before after)) ∧
    (forall model, run (transformModel ds a (.object entries)) c = (.ok model, c') ->
      exists before after,
        run (convertedModel ds a (.object entries)) c = (.ok (.object before), c') ∧
        model = .object after ∧
        (Set.InjOn (nameOnTarget ds) {key | key ∈ Entries.keys before} ->
          (∀ key ∈ Entries.keys before, nameInOrder ds key = nameOnTarget ds key) ->
          Entries.RenamesBy (nameOnTarget ds) before after)) ∧
    (forall names : List String, names.Nodup ->
      Set.InjOn (nameOnTarget ds) {key | key ∈ names} ->
      ((∀ key ∈ names, nameInOrder ds key = nameOnTarget ds key) ↔ RenamesAtOnce ds names)) ∧
    (Unchained ds -> forall key, nameInOrder ds key = nameOnTarget ds key) := by
  have hobject : IsDistinctObject (.object entries) := ⟨entries, rfl, hentries⟩
  refine ⟨?_, ?_, ?_, ?_⟩
  · intro o hrun
    rcases operation?_of_run_transformParameters hrun with
      ⟨converted, sent, mid, hconverted, hsent, hoperation⟩
    rcases isDistinctObject_of_convertedParameters hobject hconverted with ⟨before, rfl, hbefore⟩
    rw [renameAll_object] at hsent
    cases hsent
    exact ⟨before, _, mid, hconverted, hoperation, renamesBy_nameOnTarget hbefore⟩
  · intro model hrun
    rw [transformModel_eq] at hrun
    rcases run_bind_eq_ok hrun with ⟨converted, _, hconverted, hrename⟩
    rcases run_ofValue_eq_ok hrename with ⟨hsent, rfl⟩
    rcases isDistinctObject_of_convertedModel hobject hconverted with ⟨before, rfl, hbefore⟩
    rw [renameAll_object] at hsent
    cases hsent
    exact ⟨before, _, hconverted, rfl, renamesBy_nameOnTarget hbefore⟩
  · intro names hnodup hinj
    constructor
    · rintro hagree _ rfl
      exact renamesBy_nameOnTarget hnodup hinj hagree
    · exact nameInOrder_eq_of_renamesBy hnodup hinj
  · exact nameInOrder_eq_nameOnTarget hnames

/-- The description of an attribute that only gets another name. -/
def ofRename (name newName : String) : AttributeDescription :=
  { ofName name with newName? := some newName }

def twoParameters : List (String × Value) :=
  [(Operation.nameKey, .string "tune"), ("low", .int 1), ("high", .int 2)]

theorem renamesBy_shift :
    ([ofRename "high" "top", ofRename "low" "high"].map name).Nodup ∧
    Entries.Distinct twoParameters ∧
    Entries.RenamesBy (nameOnTarget [ofRename "high" "top", ofRename "low" "high"])
      twoParameters [(Operation.nameKey, .string "tune"), ("top", .int 2), ("high", .int 1)] := by
  have hnames : ([ofRename "high" "top", ofRename "low" "high"].map name).Nodup := by
    decide
  have hdistinct : Entries.Distinct twoParameters := by
    unfold Entries.Distinct
    decide
  let c := Context.start ⟨"legacy-host", ⟨1, 4, 0⟩, [], .host⟩ (ManagementModel.ofRoot .empty)
  have hrun : run (transformParameters [ofRename "high" "top", ofRename "low" "high"]
      Address.root (.object twoParameters)) c = (.ok (.send (.object
        [(Operation.nameKey, .string "tune"), ("top", .int 2), ("high", .int 1)])), c) := by
    rfl
  rcases (renamesBy_of_run hnames hdistinct).1 _ hrun with
    ⟨before, after, mid, hbefore, hafter, hrenames⟩
  cases hbefore
  cases hafter
  refine ⟨hnames, hdistinct, hrenames ?_ ?_⟩
  · intro key hkey other hother heq
    exact (List.nodup_map_iff_inj_on hdistinct).mp (by decide) key hkey other hother heq
  · have hunchained : Unchained [ofRename "high" "top", ofRename "low" "high"] := by
      unfold Unchained
      decide
    exact fun key _ => nameInOrder_eq_nameOnTarget hnames hunchained key

/-- Two attributes that get the names of each other: the first is moved over the second, and back. -/
theorem not_renamesBy_swap :
    ([ofRename "low" "high", ofRename "high" "low"].map name).Nodup ∧
    Entries.Distinct twoParameters ∧
    Set.InjOn (nameOnTarget [ofRename "low" "high", ofRename "high" "low"])
      {key | key ∈ Entries.keys twoParameters} ∧
    (forall c, run (convertedParameters [ofRename "low" "high", ofRename "high" "low"]
        Address.root (.object twoParameters)) c = (.ok (.object twoParameters), c) ∧
      run (transformParameters [ofRename "low" "high", ofRename "high" "low"]
        Address.root (.object twoParameters)) c =
        (.ok (.send (.object [(Operation.nameKey, .string "tune"), ("low", .int 1)])), c)) ∧
    ¬ Entries.RenamesBy (nameOnTarget [ofRename "low" "high", ofRename "high" "low"])
      twoParameters [(Operation.nameKey, .string "tune"), ("low", .int 1)] := by
  have hdistinct : Entries.Distinct twoParameters := by
    unfold Entries.Distinct
    decide
  refine ⟨by decide, hdistinct, ?_, fun c => ⟨rfl, rfl⟩, ?_⟩
  · intro key hkey other hother heq
    exact (List.nodup_map_iff_inj_on hdistinct).mp (by decide) key hkey other hother heq
  · intro hrenames
    have hlow := hrenames.moved "low" (by decide)
    cases hlow

end AttributeDescription
end MixedDomain
