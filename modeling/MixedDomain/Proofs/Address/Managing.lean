import MixedDomain.Config.Basic
import MixedDomain.Proofs.Address.Lookup

/-!
# Which addresses are managed

## Patterns that are overtaken

A pattern with a wildcard is overtaken on the way to an address when another pattern
has the own element of the address in the place of this wildcard.  The pattern that
stands for an address is the one that fits it and is overtaken by none.

## Registering more

A further pattern takes an address away just when it overtakes the pattern that
stands for the address without fitting the address itself.  The same holds of the
registrations of resource types.
-/

namespace MixedDomain

namespace Address

variable {patterns : List Address} {front p q r a : Address} {e d : PathElement}

/-- Whether a pattern has, in the first place where it differs from another one, the own element of
an address. -/
def overtakes : Address -> Address -> Address -> Bool
  | d :: q, e :: p, own :: a => if d = e then overtakes q p a else d == own
  | _, _, _ => false

theorem overtakes_self (p a : Address) : overtakes p p a = false := by
  induction p generalizing a with
  | nil => rfl
  | cons e rest ih =>
      cases a with
      | nil => rfl
      | cons own others => simpa [overtakes] using ih others

theorem overtakes_trans (hrq : overtakes r q a) (hqp : overtakes q p a) : overtakes r p a := by
  induction a generalizing r q p with
  | nil =>
      cases r <;> cases q <;> cases hrq
  | cons own a ih =>
      cases r with
      | nil => cases hrq
      | cons x r =>
          cases q with
          | nil => cases hrq
          | cons y q =>
              cases p with
              | nil => cases hqp
              | cons z p =>
                  simp only [overtakes] at hrq hqp ⊢
                  by_cases hxy : x = y
                  · subst hxy
                    by_cases hxz : x = z
                    · rw [if_pos rfl] at hrq
                      rw [if_pos hxz] at hqp ⊢
                      exact ih hrq hqp
                    · rw [if_neg hxz] at hqp ⊢
                      exact hqp
                  · rw [if_neg hxy] at hrq
                    by_cases hyz : y = z
                    · rwa [if_neg fun hxz => hxy (hxz.trans hyz.symm)]
                    · rw [if_neg hyz] at hqp
                      exact absurd ((beq_iff_eq.mp hrq).trans (beq_iff_eq.mp hqp).symm) hxy

/-!
# The pattern that stands for an address
-/

theorem covers_taken (patterns : List Address) (front : Address) (e : PathElement) :
    (taken patterns front e).covers e := by
  unfold taken
  split
  · exact PathElement.covers_self e
  · exact PathElement.covers_wildcard e

theorem taken_eq_self (hbegins : begins patterns (front.child e)) : taken patterns front e = e := by
  unfold taken
  cases he : e.isWildcard with
  | false => simp [hbegins]
  | true => simp [← PathElement.eq_wildcard_of_isWildcard he]

/-- An element that covers another one without being it is taken when no pattern has the other
one. -/
theorem taken_eq_of_covers (hcovers : d.covers e)
    (hfree : d ≠ e -> begins patterns (front.child e) = false)
    (hbegins : begins patterns (front.child d)) : taken patterns front e = d := by
  by_cases hne : d = e
  · subst hne
    exact taken_eq_self hbegins
  · rw [taken, hfree hne, Bool.and_false, if_neg Bool.false_ne_true]
    simp only [PathElement.covers, Bool.and_eq_true, Bool.or_eq_true, beq_iff_eq] at hcovers
    rcases hcovers with ⟨hkey, hwildcard | hvalue⟩
    · rw [PathElement.eq_wildcard_of_isWildcard hwildcard, hkey]
    · exact absurd (by cases d; cases e; cases hkey; cases hvalue; rfl) hne

def LeadsFrom (patterns : List Address) (front p a : Address) : Prop :=
  a.fits p ∧ forall q, front ++ q ∈ patterns -> overtakes q p a = false

theorem leadsFrom_cons_iff (hbegins : begins patterns (front.child d)) :
    LeadsFrom patterns front (d :: p) (e :: a) ↔
      taken patterns front e = d ∧ LeadsFrom patterns (front.child d) p a := by
  constructor
  · rintro ⟨hfits, hnone⟩
    rw [fits, Bool.and_eq_true] at hfits
    have hfree : d ≠ e -> begins patterns (front.child e) = false := by
      intro hne
      by_contra hsome
      rw [Bool.not_eq_false, begins_iff] at hsome
      rcases hsome with ⟨_, hmem, ⟨q, rfl⟩⟩
      have hmore := hnone (e :: q) (by rwa [append_cons_eq_child])
      simp [overtakes, hne.symm] at hmore
    refine ⟨taken_eq_of_covers hfits.1 hfree hbegins, hfits.2, ?_⟩
    intro q hq
    have hmore := hnone (d :: q) (by rwa [append_cons_eq_child])
    simpa [overtakes] using hmore
  · rintro ⟨rfl, hfits, hnone⟩
    refine ⟨by rw [fits, covers_taken, hfits, Bool.and_self], ?_⟩
    intro q hq
    cases q with
    | nil => rfl
    | cons x q =>
        rw [append_cons_eq_child] at hq
        by_cases hx : x = taken patterns front e
        · subst hx
          simpa [overtakes] using hnone q hq
        · have hxe : x ≠ e := by
            rintro rfl
            exact hx (taken_eq_self (begins_iff.mpr ⟨_, hq, q, rfl⟩)).symm
          simp [overtakes, hx, hxe]

theorem standingFrom?_eq_some_iff (hbegins : begins patterns (front ++ p)) :
    standingFrom? patterns front a = some p ↔ LeadsFrom patterns front p a := by
  induction a generalizing front p with
  | nil =>
      cases p with
      | nil => simp [standingFrom?, LeadsFrom, fits, overtakes]
      | cons d p => simp [standingFrom?, LeadsFrom, fits]
  | cons e a ih =>
      cases p with
      | nil => simp [standingFrom?, LeadsFrom, fits]
      | cons d p =>
          rw [append_cons_eq_child] at hbegins
          have hnext : begins patterns (front.child d) := by
            rcases begins_iff.mp hbegins with ⟨q, hq, hlong⟩
            exact begins_iff.mpr ⟨q, hq, (List.prefix_append _ p).trans hlong⟩
          rw [leadsFrom_cons_iff hnext, ← ih hbegins]
          simp only [standingFrom?, Option.ite_none_right_eq_some, Option.map_eq_some_iff,
            List.cons.injEq]
          constructor
          · rintro ⟨_, q, hq, htaken, rfl⟩
            exact ⟨htaken, htaken ▸ hq⟩
          · rintro ⟨htaken, hp⟩
            exact ⟨htaken ▸ hnext, p, htaken ▸ hp, htaken, rfl⟩

def Leads (patterns : List Address) (p a : Address) : Prop :=
  a.fits p ∧ ∀ q ∈ patterns, overtakes q p a = false

theorem standing?_eq_some_iff (hp : p ∈ patterns) :
    standing? patterns a = some p ↔ Leads patterns p a :=
  standingFrom?_eq_some_iff (begins_iff.mpr ⟨p, hp, List.prefix_rfl⟩)

end Address

namespace Trie

open Address

variable {config : Type} {entries : List (Address × config)} {a p q : Address} {c : config}

theorem isSome_get?_insertNodes_iff (entries : List (Address × config)) (a : Address) :
    ((empty.insertNodes entries).get? a).isSome ↔
      ∃ p ∈ entries.map Prod.fst, Leads (entries.map Prod.fst) p a := by
  rw [get?_insertNodes, Option.isSome_iff_exists]
  constructor
  · rintro ⟨c, hc⟩
    rcases Option.bind_eq_some_iff.mp hc with ⟨p, hstanding, hlast⟩
    have hp := isSome_lastAt?_iff.mp (Option.isSome_of_eq_some hlast)
    exact ⟨p, hp, (standing?_eq_some_iff hp).mp hstanding⟩
  · rintro ⟨p, hp, hleads⟩
    rcases Option.isSome_iff_exists.mp (isSome_lastAt?_iff.mpr hp) with ⟨c, hlast⟩
    exact ⟨c, Option.bind_eq_some_iff.mpr ⟨p, (standing?_eq_some_iff hp).mpr hleads, hlast⟩⟩

/-- A further pattern takes an address away just when it overtakes the pattern that leads there, and
does not fit the address. -/
theorem get?_insert_eq_none_iff (hp : p ∈ entries.map Prod.fst)
    (hleads : Leads (entries.map Prod.fst) p a) (q : Address) (c : config) :
    ((empty.insertNodes entries).register q c).2.get? a = none ↔
      overtakes q p a ∧ a.fits q = false := by
  have hmore : ((empty.insertNodes entries).register q c).2 =
      empty.insertNodes (entries ++ [(q, c)]) := by
    rw [insertNodes_append]
    rfl
  have hpatterns : (entries ++ [(q, c)]).map Prod.fst = entries.map Prod.fst ++ [q] := by
    simp
  rw [hmore, ← Option.not_isSome_iff_eq_none, isSome_get?_insertNodes_iff, hpatterns]
  constructor
  · intro hnone
    have hovertakes : overtakes q p a := by
      by_contra hbehind
      refine hnone ⟨p, List.mem_append_left _ hp, hleads.1, ?_⟩
      intro r hr
      rcases List.mem_append.mp hr with hold | hnew
      · exact hleads.2 r hold
      · rw [List.mem_singleton.mp hnew]
        simpa using hbehind
    refine ⟨hovertakes, ?_⟩
    by_contra hfits
    rw [Bool.not_eq_false] at hfits
    refine hnone ⟨q, by simp, hfits, ?_⟩
    intro r hr
    rcases List.mem_append.mp hr with hold | hnew
    · by_contra hfirst
      rw [Bool.not_eq_false] at hfirst
      have hnot := hleads.2 r hold
      rw [overtakes_trans hfirst hovertakes] at hnot
      cases hnot
    · rw [List.mem_singleton.mp hnew]
      exact overtakes_self q a
  · rintro ⟨hovertakes, hfits⟩ ⟨r, hr, hfitsr, hnone⟩
    have hrp : r = p := by
      rcases List.mem_append.mp hr with hold | hnew
      · have hleadsr : Leads (entries.map Prod.fst) r a :=
          ⟨hfitsr, fun s hs => hnone s (List.mem_append_left _ hs)⟩
        rw [← standing?_eq_some_iff hold, (standing?_eq_some_iff hp).mpr hleads] at hleadsr
        exact (Option.some.inj hleadsr).symm
      · rw [List.mem_singleton.mp hnew, hfits] at hfitsr
        cases hfitsr
    have hnot := hnone q (by simp)
    rw [hrp, hovertakes] at hnot
    cases hnot

end Trie

/-!
# Managed addresses
-/

theorem Config.registrations_model (config : Config) (root : Resource) :
    (config.model root).registrations = Trie.empty.insertNodes config.registrations := by
  have hfold : forall entries (m : ManagementModel),
      (entries.foldl (fun m entry => m.register entry.1 entry.2) m).registrations =
        m.registrations.insertNodes entries := by
    intro entries
    induction entries with
    | nil => exact fun _ => rfl
    | cons entry rest ih => exact fun m => ih (m.register entry.1 entry.2)
  exact hfold config.registrations (.ofRoot root)

/-- An address is managed exactly when some registered pattern fits it that no registered pattern
overtakes on the way to it.  A further pattern takes such an address away just when it overtakes that
pattern and does not fit the address.  The registrations of a configuration are found likewise. -/
theorem Trie.managed_of_registered {config : Type} (entries : List (Address × config))
    (a : Address) :
    (((empty.insertNodes entries).get? a).isSome ↔
      ∃ p ∈ entries.map Prod.fst, Address.Leads (entries.map Prod.fst) p a) ∧
    (∀ p ∈ entries.map Prod.fst, Address.Leads (entries.map Prod.fst) p a -> forall q c,
      (((empty.insertNodes entries).register q c).2.get? a = none ↔
        Address.overtakes q p a ∧ a.fits q = false)) ∧
    (forall (config : Config) root, ((config.model root).registration? a).isSome ↔
      ∃ p ∈ config.registrations.map Prod.fst,
        Address.Leads (config.registrations.map Prod.fst) p a) := by
  refine ⟨isSome_get?_insertNodes_iff entries a,
    fun p hp hleads => get?_insert_eq_none_iff hp hleads, ?_⟩
  intro config root
  rw [ManagementModel.registration?, Config.registrations_model]
  exact isSome_get?_insertNodes_iff config.registrations a

namespace MailServers

def servers : Address :=
  [Address.subsystemElement "mail", PathElement.wildcard "server"]

def main : Address :=
  [Address.subsystemElement "mail", ⟨"server", "main"⟩]

def logs : Address :=
  main.child (PathElement.wildcard "log")

/-- What is known about servers, and about their logs. -/
def registration : ResourceRegistration :=
  ⟨[⟨"size", some (.int 10)⟩], []⟩

def configOf (patterns : List Address) : Config :=
  { Config.empty with registrations := patterns.map fun pattern => (pattern, registration) }

end MailServers

open MailServers in
theorem Trie.managed_of_registered_servers :
    Address.Leads [servers] servers main ∧
    ((empty.insertNodes [(servers, registration)]).get? main).isSome ∧
    ((empty.insertNodes [(servers, registration)]).register logs registration).2.get? main =
      none ∧
    (((configOf [servers]).model .empty).registration? main).isSome := by
  have hleads : Address.Leads [servers] servers main := by
    refine ⟨by decide, fun q hq => ?_⟩
    cases List.mem_singleton.mp hq
    decide
  have hserver : servers ∈ [servers] := List.mem_singleton_self servers
  have hmanaged := managed_of_registered [(servers, registration)] main
  refine ⟨hleads, hmanaged.1.mpr ⟨servers, hserver, hleads⟩, ?_,
    (hmanaged.2.2 (configOf [servers]) .empty).mpr ⟨servers, hserver, hleads⟩⟩
  exact (hmanaged.2.1 servers hserver hleads logs registration).mpr (by decide)

open MailServers in
/-- What is known about all servers is not found for a server about whose logs something is
registered. -/
theorem Config.not_managed_of_deeper :
    main.fits servers ∧
    (((configOf [servers]).model .empty).registration? main).isSome ∧
    ((configOf [servers, logs]).model .empty).registration? main = none := by
  exact ⟨by decide, rfl, rfl⟩

end MixedDomain
