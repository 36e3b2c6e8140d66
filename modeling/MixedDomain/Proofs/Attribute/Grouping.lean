import MixedDomain.Proofs.Attribute.Rejecting
import MixedDomain.Proofs.Sequence

/-!
# Groups of rejections

## One message for each

Everything that checks reject is found in the order of the descriptions and of the
checks of each.  The messages come in the order in which they are found first.  Each
is the one of the check that was found with it first, and names the attributes of
all that were found with it.
-/

namespace MixedDomain

/-- A value of an attribute that a check rejects. -/
structure Finding where
  check : RejectCheck
  name : String
  value : Value

namespace Finding

def messageId (f : Finding) : String :=
  f.check.messageId

/-- The attribute that is rejected, with its value. -/
def rejected (f : Finding) : String × Value :=
  (f.name, f.value)

end Finding

namespace Rejections

variable {found : List Finding} {r : Rejections} {check : RejectCheck} {name : String} {v : Value}

/-- What identifies the messages, in their order. -/
def messageIds (r : Rejections) : List String :=
  r.map fun group => group.1.messageId

/-- Whether rejections are findings in groups: one group for each message in the order in which
they are found first, with the first check that has the message and all attributes found with
it. -/
structure Groups (found : List Finding) (r : Rejections) : Prop where
  messageIds_eq : r.messageIds = (found.map Finding.messageId).eraseDups
  first : ∀ group ∈ r, ∃ f, found.find? (fun f => f.messageId == group.1.messageId) = some f ∧
    f.check = group.1
  attributes : ∀ group ∈ r, group.2 =
    Entries.sorted ((found.filter fun f => f.messageId == group.1.messageId).map Finding.rejected)

theorem messageIds_add (r : Rejections) (check : RejectCheck) (name : String) (v : Value) :
    (r.add check name v).messageIds =
      if check.messageId ∈ r.messageIds then r.messageIds else r.messageIds ++ [check.messageId] := by
  induction r with
  | nil =>
      simp [add, messageIds]
  | cons group rest ih =>
      unfold messageIds at ih ⊢
      simp only [add]
      split
      case isTrue hsame => simp [hsame]
      case isFalse hother =>
          simp only [List.map_cons, ih, List.mem_cons, Ne.symm hother, false_or]
          split <;> rfl

/-- A group is an old one with another message, the old one with the same message and one more
attribute, or a new one. -/
theorem mem_add (hdistinct : r.messageIds.Nodup) {group : RejectCheck × RejectedAttributes}
    (hgroup : group ∈ r.add check name v) :
    (group ∈ r ∧ group.1.messageId ≠ check.messageId) ∨
    (∃ old ∈ r, old.1.messageId = check.messageId ∧
      group = (old.1, Entries.insertSorted name v old.2)) ∨
    (check.messageId ∉ r.messageIds ∧ group = (check, [(name, v)])) := by
  induction r with
  | nil =>
      exact Or.inr (Or.inr ⟨List.not_mem_nil, List.mem_singleton.mp hgroup⟩)
  | cons old rest ih =>
      rw [messageIds, List.map_cons, List.nodup_cons] at hdistinct
      simp only [add] at hgroup
      split at hgroup
      case isTrue hsame =>
          rcases List.mem_cons.mp hgroup with rfl | hmem
          · exact Or.inr (Or.inl ⟨old, List.mem_cons_self, hsame, rfl⟩)
          · refine Or.inl ⟨List.mem_cons_of_mem old hmem, ?_⟩
            rw [← hsame]
            exact fun heq => hdistinct.1 (heq ▸ List.mem_map_of_mem hmem)
      case isFalse hother =>
          rcases List.mem_cons.mp hgroup with rfl | hmem
          · exact Or.inl ⟨List.mem_cons_self, hother⟩
          · rcases ih hdistinct.2 hmem with ⟨hkept, hne⟩ | ⟨first, hfirst, hsame⟩ | ⟨hnew, heq⟩
            · exact Or.inl ⟨List.mem_cons_of_mem old hkept, hne⟩
            · exact Or.inr (Or.inl ⟨first, List.mem_cons_of_mem old hfirst, hsame⟩)
            · refine Or.inr (Or.inr ⟨?_, heq⟩)
              rw [messageIds, List.map_cons, List.mem_cons, not_or]
              exact ⟨Ne.symm hother, hnew⟩

theorem groups_nil : Groups [] [] := by
  constructor
  case messageIds_eq => rfl
  all_goals exact List.forall_mem_nil _

theorem Groups.nodup (h : Groups found r) : r.messageIds.Nodup := by
  rw [h.messageIds_eq]
  exact List.nodup_eraseDups _

theorem Groups.mem_messageIds (h : Groups found r) {id : String} :
    id ∈ r.messageIds ↔ ∃ f ∈ found, f.messageId = id := by
  rw [h.messageIds_eq, List.mem_eraseDups, List.mem_map]

/-- One more finding joins the group with its message, or begins a new one. -/
theorem Groups.add (h : Groups found r) (f : Finding) :
    Groups (found ++ [f]) (r.add f.check f.name f.value) := by
  have hsplit := fun {group : RejectCheck × RejectedAttributes}
      (hgroup : group ∈ r.add f.check f.name f.value) => mem_add h.nodup hgroup
  constructor
  case messageIds_eq =>
    have hmem : f.check.messageId ∈ r.messageIds ↔
        f.check.messageId ∈ found.map Finding.messageId := by
      rw [h.messageIds_eq, List.mem_eraseDups]
    rw [messageIds_add, List.map_append, List.map_singleton, List.eraseDups_append_singleton,
      ← h.messageIds_eq]
    exact if_congr hmem rfl rfl
  case first =>
    intro group hgroup
    rw [List.find?_append]
    rcases hsplit hgroup with ⟨hkept, _⟩ | ⟨old, hold, _, rfl⟩ | ⟨hnew, rfl⟩
    · rcases h.first group hkept with ⟨first, hfirst, hcheck⟩
      exact ⟨first, by rw [hfirst]; rfl, hcheck⟩
    · rcases h.first old hold with ⟨first, hfirst, hcheck⟩
      exact ⟨first, by rw [hfirst]; rfl, hcheck⟩
    · have hnone : found.find? (fun other => other.messageId == f.check.messageId) = none := by
        rw [List.find?_eq_none]
        intro other hother heq
        exact hnew (h.mem_messageIds.mpr ⟨other, hother, by simpa using heq⟩)
      refine ⟨f, ?_, rfl⟩
      rw [hnone]
      simp [Finding.messageId]
  case attributes =>
    intro group hgroup
    rw [List.filter_append, List.map_append]
    rcases hsplit hgroup with ⟨hkept, hne⟩ | ⟨old, hold, hsame, rfl⟩ | ⟨hnew, rfl⟩
    · rw [h.attributes group hkept]
      simp [Finding.messageId, Ne.symm hne]
    · rw [h.attributes old hold]
      simp only [hsame]
      rw [List.filter_cons_of_pos (by simp [Finding.messageId])]
      exact (Entries.sorted_append_singleton _ f.rejected).symm
    · have hnone : (found.filter fun other => other.messageId == f.check.messageId) = [] := by
        rw [List.filter_eq_nil_iff]
        intro other hother heq
        exact hnew (h.mem_messageIds.mpr ⟨other, hother, by simpa using heq⟩)
      rw [hnone, List.filter_cons_of_pos (by simp [Finding.messageId])]
      rfl

end Rejections

namespace AttributeDescription

variable {d : AttributeDescription} {ds : List AttributeDescription}

def ownFindings (d : AttributeDescription) (a : Address) (v : Value) (c : Context) : List Finding :=
  (d.rejecting a v c).map fun check => ⟨check, d.name, v⟩

def findings (ds : List AttributeDescription) (a : Address) (v : Value) (c : Context) :
    List Finding :=
  ds.flatMap fun d => d.ownFindings a (v.getOrUndefined d.name) c

theorem rejections_eq_foldl (ds : List AttributeDescription) (a : Address) (v : Value)
    (c : Context) :
    rejections ds a v c =
      (findings ds a v c).foldl (fun r f => Rejections.add f.check f.name f.value r) [] := by
  simp only [rejections, findings, addRejections, ownFindings, List.foldl_flatMap, List.foldl_map]

theorem groups_rejections (ds : List AttributeDescription) (a : Address) (v : Value) (c : Context) :
    Rejections.Groups (findings ds a v c) (rejections ds a v c) := by
  rw [rejections_eq_foldl]
  induction findings ds a v c using List.reverseRecOn with
  | nil => exact Rejections.groups_nil
  | append_singleton found f ih =>
      rw [List.foldl_append]
      exact ih.add f

end AttributeDescription
end MixedDomain
