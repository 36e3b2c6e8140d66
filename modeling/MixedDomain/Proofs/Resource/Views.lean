import MixedDomain.Proofs.Resource.Changing
import MixedDomain.Resource.View

/-!
# Sequences of calls on views

## Looking down

Views are derived from one another by child, by kind and by relative address.  In a
tree in order, the views that are derived are exactly those of the resources that the
asked addresses lead to, at addresses below and with the same flag.

## Keeping views

All views that have been obtained are kept, each with the path that it was reached
by, and every call goes to one of them.  A read-only view refuses every change.  A
view that may be changed is a copy of its own: it shows the changes that were made
through it, and no others.
-/

namespace MixedDomain
namespace Resource.Change

def onView (v : ResourceView) : Change -> Except TransformError ResourceView
  | .writeModel model => v.writeModel model
  | .updateModel f => v.updateModel f
  | .register e c => v.registerChild e c
  | .remove e => (v.removeChild e).map Prod.snd

def action : Change -> String
  | .writeModel _ => "write-model"
  | .updateModel _ => "write-model"
  | .register _ _ => "register-child"
  | .remove _ => "remove-child"

theorem onView_eq (v : ResourceView) (change : Change) :
    change.onView v = v.change change.action change.apply := by
  cases change with
  | remove e =>
      simp only [onView, ResourceView.removeChild, ResourceView.change]
      split <;> rfl
  | _ => rfl

theorem onView_of_readOnly {v : ResourceView} (hv : v.readOnly = true) (change : Change) :
    change.onView v = .error (.immutable v.address.text change.action) := by
  rw [onView_eq, ResourceView.change, if_pos hv]

theorem onView_of_writable {v : ResourceView} (hv : v.readOnly = false) (change : Change) :
    change.onView v = .ok { v with resource := change.apply v.resource } := by
  rw [onView_eq, ResourceView.change, if_neg (by simp [hv])]

end Resource.Change

namespace ResourceView

open Resource (Change)

theorem removeChild_of_writable {v : ResourceView} (hv : v.readOnly = false) (e : PathElement) :
    v.removeChild e = .ok (v.resource.child? e, { v with resource := v.resource.remove e }) := by
  simp only [removeChild, ResourceView.change, hv]
  rfl

/-!
# Looking down
-/

/-- A way to derive views. -/
inductive Look where
  | child (e : PathElement)
  | children (kind : String)
  | navigate (relative : Address)

def Look.Asks (path : Address) : Look -> Prop
  | .child e => path = [e]
  | .children kind => exists name, path = [⟨kind, name⟩]
  | .navigate relative => path = relative

/-- The views that a look derives, with their relative addresses. -/
def Look.views (v : ResourceView) : Look -> List (Address × ResourceView)
  | .child e => ((v.child? e).map fun w => ([e], w)).toList
  | .children kind =>
      ((v.resource.childrenOfKind kind).map fun pair => [pair.1]).zip (v.childrenOfKind kind)
  | .navigate relative => ((v.navigate? relative).map fun w => (relative, w)).toList

theorem mem_childrenOfKind_iff {r : Resource} (hr : r.Ordered) {kind : String} {e : PathElement}
    {c : Resource} :
    (e, c) ∈ r.childrenOfKind kind ↔ e.key = kind ∧ r.child? e = some c := by
  have hchildren := (Resource.ordered_iff.mp hr).1
  rw [Resource.childrenOfKind, ElementMap.ofKind, List.mem_filter, beq_iff_eq, and_comm]
  exact and_congr_right fun _ => ⟨ElementMap.get?_of_mem hchildren, ElementMap.mem_of_get?⟩

theorem navigate?_singleton (r : Resource) (e : PathElement) : r.navigate? [e] = r.child? e := by
  cases h : r.child? e <;> simp [Resource.navigate?, h]

theorem Look.mem_views_iff {v w : ResourceView} (hv : v.resource.Ordered) (look : Look)
    {path : Address} :
    (path, w) ∈ look.views v ↔
      look.Asks path ∧ exists c, v.resource.navigate? path = some c ∧
        w = ⟨v.address ++ path, c, v.readOnly⟩ := by
  cases look with
  | child e =>
      simp only [views, child?, Option.mem_toList, Option.map_map, Option.map_eq_some_iff,
        Function.comp, Prod.mk.injEq, Asks]
      constructor
      · rintro ⟨c, hc, rfl, rfl⟩
        exact ⟨rfl, c, (navigate?_singleton _ e).trans hc, rfl⟩
      · rintro ⟨rfl, c, hc, rfl⟩
        exact ⟨c, (navigate?_singleton _ e).symm.trans hc, rfl, rfl⟩
  | children kind =>
      simp only [views, childrenOfKind, List.zip_map', List.mem_map, Prod.mk.injEq, Asks]
      constructor
      · rintro ⟨⟨e, c⟩, hpair, rfl, rfl⟩
        rcases (mem_childrenOfKind_iff hv).mp hpair with ⟨rfl, hc⟩
        exact ⟨⟨e.value, rfl⟩, c, (navigate?_singleton _ e).trans hc, rfl⟩
      · rintro ⟨⟨name, rfl⟩, c, hc, rfl⟩
        rw [navigate?_singleton] at hc
        exact ⟨(⟨kind, name⟩, c), (mem_childrenOfKind_iff hv).mpr ⟨rfl, hc⟩, rfl, rfl⟩
  | navigate relative =>
      simp only [views, navigate?, Option.mem_toList, Option.map_map, Option.map_eq_some_iff,
        Function.comp, Prod.mk.injEq, Asks]
      constructor
      · rintro ⟨c, hc, rfl, rfl⟩
        exact ⟨rfl, c, hc, rfl⟩
      · rintro ⟨rfl, c, hc, rfl⟩
        exact ⟨c, hc, rfl, rfl⟩

/-!
# Keeping views
-/

/-- A view that has been obtained, and the path that it was reached by. -/
structure Kept where
  path : Address
  view : ResourceView

/-- A call on the view at a place among those kept. -/
inductive Call where
  | look (place : Nat) (look : Look)
  | change (place : Nat) (change : Change)

def Call.IsOrdered : Call -> Prop
  | .look _ _ => True
  | .change _ edit => edit.IsOrdered

def Kept.looked (k : Kept) (look : Look) : List Kept :=
  (look.views k.view).map fun found => ⟨k.path ++ found.1, found.2⟩

def Kept.withResource (r : Resource) (k : Kept) : Kept :=
  { k with view := { k.view with resource := r } }

/-- The views that are kept after a call; a call on a view that is not there does nothing. -/
def Call.on (kept : List Kept) : Call -> List Kept
  | .look place way =>
      match kept[place]? with
      | some k => kept ++ k.looked way
      | none => kept
  | .change place edit =>
      match kept[place]? with
      | some k =>
          match edit.onView k.view with
          | .ok v => kept.set place { k with view := v }
          | .error _ => kept
      | none => kept

def run (calls : List Call) (kept : List Kept) : List Kept :=
  calls.foldl Call.on kept

def changesAt (place : Nat) : List Call -> List Change
  | [] => []
  | .change other change :: rest =>
      if other = place then change :: changesAt place rest else changesAt place rest
  | .look _ _ :: rest => changesAt place rest

theorem forall_mem_run {p : Kept -> Prop} {q : Call -> Prop}
    (hlook : forall k, p k -> forall look, ∀ found ∈ k.looked look, p found)
    (hchange : forall k, p k -> forall place change, q (.change place change) ->
      forall v, change.onView k.view = .ok v -> p { k with view := v })
    {calls : List Call} (hcalls : ∀ call ∈ calls, q call) {kept : List Kept}
    (hkept : ∀ k ∈ kept, p k) : ∀ k ∈ run calls kept, p k := by
  induction calls generalizing kept with
  | nil => exact hkept
  | cons call rest ih =>
      rcases List.forall_mem_cons.mp hcalls with ⟨hcall, hrest⟩
      refine ih hrest ?_
      cases call with
      | look place look =>
          simp only [Call.on]
          split
          · rename_i k hk
            exact List.forall_mem_append.mpr ⟨hkept, hlook k (hkept k (List.mem_of_getElem? hk)) look⟩
          · exact hkept
      | change place change =>
          simp only [Call.on]
          split
          · rename_i k hk
            split
            · rename_i v hv
              intro other hother
              rcases List.mem_or_eq_of_mem_set hother with hold | rfl
              · exact hkept other hold
              · exact hchange k (hkept k (List.mem_of_getElem? hk)) place change hcall v hv
            · exact hkept
          · exact hkept

theorem getElem?_on_look {kept : List Kept} {place : Nat} {k : Kept} (hk : kept[place]? = some k)
    (other : Nat) (look : Look) : (Call.on kept (.look other look))[place]? = some k := by
  simp only [Call.on]
  split
  · rw [List.getElem?_append_left (List.getElem?_eq_some_iff.mp hk).1, hk]
  · exact hk

theorem getElem?_on_change_of_ne {kept : List Kept} {place other : Nat} (hne : other ≠ place)
    (change : Change) : (Call.on kept (.change other change))[place]? = kept[place]? := by
  simp only [Call.on]
  split
  · split
    · exact List.getElem?_set_ne hne
    · rfl
  · rfl

theorem on_change_of_readOnly {kept : List Kept} {place : Nat} {k : Kept}
    (hk : kept[place]? = some k) (hread : k.view.readOnly = true) (change : Change) :
    Call.on kept (.change place change) = kept := by
  simp [Call.on, hk, Change.onView_of_readOnly hread]

theorem on_change_of_writable {kept : List Kept} {place : Nat} {k : Kept}
    (hk : kept[place]? = some k) (hwrite : k.view.readOnly = false) (change : Change) :
    Call.on kept (.change place change) =
      kept.set place (k.withResource (change.apply k.view.resource)) := by
  simp [Call.on, hk, Change.onView_of_writable hwrite, Kept.withResource]

/-- A read-only view stays what it is. -/
theorem getElem?_run_of_readOnly (calls : List Call) {kept : List Kept} {place : Nat} {k : Kept}
    (hk : kept[place]? = some k) (hread : k.view.readOnly = true) :
    (run calls kept)[place]? = some k := by
  induction calls generalizing kept with
  | nil => exact hk
  | cons call rest ih =>
      refine ih ?_
      cases call with
      | look other look => exact getElem?_on_look hk other look
      | change other change =>
          by_cases hplace : other = place
          · subst hplace
            rw [on_change_of_readOnly hk hread, hk]
          · rw [getElem?_on_change_of_ne hplace, hk]

theorem getElem?_run_of_writable (calls : List Call) {kept : List Kept} {place : Nat} {k : Kept}
    (hk : kept[place]? = some k) (hwrite : k.view.readOnly = false) :
    (run calls kept)[place]? = some (k.withResource
      ((changesAt place calls).foldl (fun r change => change.apply r) k.view.resource)) := by
  induction calls generalizing kept k with
  | nil => exact hk
  | cons call rest ih =>
      cases call with
      | look other look => exact ih (getElem?_on_look hk other look) hwrite
      | change other change =>
          by_cases hplace : other = place
          · subst hplace
            have hset : (Call.on kept (.change other change))[other]? =
                some (k.withResource (change.apply k.view.resource)) := by
              rw [on_change_of_writable hk hwrite]
              exact List.getElem?_set_self (List.getElem?_eq_some_iff.mp hk).1
            simp only [changesAt, if_true, List.foldl_cons]
            exact ih hset hwrite
          · simp only [changesAt, if_neg hplace]
            exact ih ((getElem?_on_change_of_ne hplace change).trans hk) hwrite

/-!
# Protected and free views
-/

def LooksFind (kept : List Kept) : Prop :=
  ∀ k ∈ kept, forall (look : Look) (path : Address) (w : ResourceView),
    (path, w) ∈ look.views k.view ↔
      look.Asks path ∧ exists c, k.view.resource.navigate? path = some c ∧
        w = ⟨k.view.address ++ path, c, k.view.readOnly⟩

/-- Whether all views are read-only and show what a resource at an address has at the ends of their
paths, and refuse every change and stay as they are, whatever is called. -/
structure AreProtected (r : Resource) (a : Address) (kept : List Kept) : Prop where
  readOnly : ∀ k ∈ kept, k.view.readOnly = true
  address : ∀ k ∈ kept, k.view.address = a ++ k.path
  resource : ∀ k ∈ kept, r.navigate? k.path = some k.view.resource
  finds : LooksFind kept
  refuses : ∀ k ∈ kept, forall change : Change,
    change.onView k.view = .error (.immutable (a ++ k.path).text change.action)
  unchanged : forall (place : Nat) (change : Change), Call.on kept (.change place change) = kept
  lasting : forall (later : List Call) (place : Nat) (k : Kept), kept[place]? = some k ->
    (run later kept)[place]? = some k

/-- Whether all views may be changed, every change does to the view what it does to the resource,
a child that is removed is given back, and in the end each view shows the changes that were made
through it and no others. -/
structure AreFree (a : Address) (kept : List Kept) : Prop where
  writable : ∀ k ∈ kept, k.view.readOnly = false
  address : ∀ k ∈ kept, k.view.address = a ++ k.path
  finds : LooksFind kept
  accepts : ∀ k ∈ kept, forall change : Change,
    change.onView k.view = .ok { k.view with resource := change.apply k.view.resource }
  gives : ∀ k ∈ kept, forall e, k.view.removeChild e =
    .ok (k.view.resource.child? e, { k.view with resource := k.view.resource.remove e })
  shows : forall (later : List Call) (place : Nat) (k : Kept), kept[place]? = some k ->
    (run later kept)[place]? = some (k.withResource
      ((changesAt place later).foldl (fun r change => change.apply r) k.view.resource))

def start (v : ResourceView) : List Kept :=
  [⟨[], v⟩]

theorem areProtected_run {r : Resource} (hr : r.Ordered) (a : Address) (calls : List Call) :
    AreProtected r a (run calls (start ⟨a, r, true⟩)) := by
  have hkept : ∀ k ∈ run calls (start ⟨a, r, true⟩), k.view.readOnly = true ∧
      k.view.address = a ++ k.path ∧ r.navigate? k.path = some k.view.resource := by
    refine forall_mem_run (q := fun _ => True) ?_ ?_ (fun _ _ => trivial) ?_
    · rintro k ⟨hread, haddress, hresource⟩ look found hfound
      rcases List.mem_map.mp hfound with ⟨⟨path, w⟩, hmem, rfl⟩
      rcases (look.mem_views_iff (hr.of_navigate? hresource)).mp hmem with ⟨_, c, hc, rfl⟩
      refine ⟨hread, ?_, ?_⟩
      · rw [haddress, List.append_assoc]
      · rw [Resource.navigate?_append, hresource]
        exact hc
    · rintro k ⟨hread, _⟩ place change _ v hv
      rw [Change.onView_of_readOnly hread] at hv
      cases hv
    · exact List.forall_mem_singleton.mpr ⟨rfl, (List.append_nil a).symm, rfl⟩
  refine ⟨fun k hk => (hkept k hk).1, fun k hk => (hkept k hk).2.1, fun k hk => (hkept k hk).2.2,
    ?_, ?_, ?_, ?_⟩
  · intro k hk look path w
    exact look.mem_views_iff (hr.of_navigate? (hkept k hk).2.2)
  · intro k hk change
    rw [← (hkept k hk).2.1]
    exact Change.onView_of_readOnly (hkept k hk).1 change
  · intro place change
    cases hplace : (run calls (start ⟨a, r, true⟩))[place]? with
    | none => simp [Call.on, hplace]
    | some k =>
        exact on_change_of_readOnly hplace (hkept k (List.mem_of_getElem? hplace)).1 change
  · intro later place k hk
    exact getElem?_run_of_readOnly later hk (hkept k (List.mem_of_getElem? hk)).1

theorem areFree_run {r : Resource} (hr : r.Ordered) (a : Address) {calls : List Call}
    (hcalls : ∀ call ∈ calls, call.IsOrdered) : AreFree a (run calls (start (writable a r))) := by
  have hkept : ∀ k ∈ run calls (start (writable a r)), k.view.readOnly = false ∧
      k.view.address = a ++ k.path ∧ k.view.resource.Ordered := by
    refine forall_mem_run ?_ ?_ hcalls ?_
    · rintro k ⟨hwrite, haddress, hordered⟩ look found hfound
      rcases List.mem_map.mp hfound with ⟨⟨path, w⟩, hmem, rfl⟩
      rcases (look.mem_views_iff hordered).mp hmem with ⟨_, c, hc, rfl⟩
      refine ⟨hwrite, ?_, hordered.of_navigate? hc⟩
      rw [haddress, List.append_assoc]
    · rintro k ⟨hwrite, haddress, hordered⟩ place change hchange v hv
      rw [Change.onView_of_writable hwrite] at hv
      cases hv
      exact ⟨hwrite, haddress, hordered.change hchange⟩
    · exact List.forall_mem_singleton.mpr ⟨rfl, (List.append_nil a).symm, hr⟩
  refine ⟨fun k hk => (hkept k hk).1, fun k hk => (hkept k hk).2.1, ?_, ?_, ?_, ?_⟩
  · intro k hk look path w
    exact look.mem_views_iff (hkept k hk).2.2
  · intro k hk change
    exact Change.onView_of_writable (hkept k hk).1 change
  · intro k hk e
    exact removeChild_of_writable (hkept k hk).1 e
  · intro later place k hk
    exact getElem?_run_of_writable later hk (hkept k (List.mem_of_getElem? hk)).1

/-- All views that are obtained from a read-only one are protected, and all that are obtained from
one that may be changed are free, whatever is called on them in between. -/
theorem views_of_run {r : Resource} (hr : r.Ordered) (a : Address) (calls : List Call) :
    AreProtected r a (run calls (start ⟨a, r, true⟩)) ∧
      ((∀ call ∈ calls, call.IsOrdered) -> AreFree a (run calls (start (writable a r)))) :=
  ⟨areProtected_run hr a calls, areFree_run hr a⟩

namespace MailServers

def mail : Resource :=
  .node .undefined [(⟨"server", "main"⟩, .node .emptyObject [(⟨"log", "errors"⟩, .empty)])]

def calls : List Call :=
  [.look 0 (.child ⟨"server", "main"⟩), .change 1 (.remove ⟨"log", "errors"⟩),
    .look 0 (.children "server"), .change 0 (.writeModel (.boolean true)),
    .look 2 (.navigate [⟨"log", "errors"⟩])]

end MailServers

open MailServers in
/-- A log that is reached by kind and by address, after a change elsewhere. -/
theorem views_of_mailServers :
    mail.Ordered ∧ (∀ call ∈ calls, call.IsOrdered) ∧
      AreProtected mail [] (run calls (start ⟨[], mail, true⟩)) ∧
      AreFree [] (run calls (start (writable [] mail))) ∧
      (run calls (start (writable [] mail))).map Kept.path =
        [[], [⟨"server", "main"⟩], [⟨"server", "main"⟩],
          [⟨"server", "main"⟩, ⟨"log", "errors"⟩]] := by
  have hserver : (Resource.node .emptyObject [(⟨"log", "errors"⟩, .empty)]).Ordered :=
    .node (List.pairwise_singleton _ _)
      (List.forall_mem_singleton.mpr (Resource.ordered_ofModel .undefined))
  have hordered : mail.Ordered :=
    .node (List.pairwise_singleton _ _) (List.forall_mem_singleton.mpr hserver)
  have hcalls : ∀ call ∈ calls, call.IsOrdered := by
    simp [calls, Call.IsOrdered, Change.IsOrdered]
  exact ⟨hordered, hcalls, (views_of_run hordered [] calls).1,
    (views_of_run hordered [] calls).2 hcalls, by decide⟩

end ResourceView
end MixedDomain
