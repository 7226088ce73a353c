import Mathlib.Combinatorics.Pigeonhole
import Mathlib.Data.List.Lex
import SnappCollector.Hosts.Proofs.Walks

/-!
# Progress of a walk

The next request takes its name from the last variable of the response.  Nothing compares
that name with the one before, so the requests go up exactly if the agent makes them, and
an empty response repeats the request.
-/

namespace SnappCollector.Hosts

open CLib Collection Config Data

variable {agent : TableAgent} {first : CStr} {root : Oid}
  {suffix_of : AList fun _ : CStr => CStr}

def request_name (agent : TableAgent) (first : CStr) (root : Oid)
    (suffix_of : AList fun _ : CStr => CStr) (n : Nat) : Option Oid :=
  (request_at agent first root n 0 (walk_start root suffix_of)).map (·.name)

structure Progresses (agent : TableAgent) (first : CStr) (root : Oid)
    (suffix_of : AList fun _ : CStr => CStr) : Prop where
  increasing : ∀ m n x y, m < n → request_name agent first root suffix_of m = some x →
    request_name agent first root suffix_of n = some y → x < y
  ends : ∀ names : Finset Oid,
    (∀ n x, request_name agent first root suffix_of n = some x → x ∈ names) →
      walk agent first root names.card 0 (walk_start root suffix_of) ≠ .pending

/-- A response whose variables are all of the table, and can be read, ends behind the name
that was asked for. -/
def Advances (agent : TableAgent) (first : CStr) (root : Oid)
    (suffix_of : AList fun _ : CStr => CStr) : Prop :=
  ∀ n w vars, request_at agent first root n 0 (walk_start root suffix_of) = some w →
    agent.response first n w.name = .success true vars →
    (∀ v ∈ vars, v.in_table root = true ∧ v.readable first root = true) →
    ∃ v ∈ vars.getLast?, w.name < v.name

theorem lt_of_next_request (hadvances : Advances agent first root suffix_of) {n : Nat}
    {w w' : Walk} (hw : request_at agent first root n 0 (walk_start root suffix_of) = some w)
    (hnext : next_request agent first root n w = some w') : w.name < w'.name := by
  obtain ⟨vars, hresponse, hvars, hname⟩ :=
    name_of_next_request (running_of_request_at rfl hw) hnext
  obtain ⟨v, hlast, hlt⟩ := hadvances n w vars hw hresponse hvars
  rw [hname, Option.mem_def.mp hlast]
  exact hlt

theorem increasing_of_advances (hadvances : Advances agent first root suffix_of) {m n : Nat}
    (hmn : m < n) {w w' : Walk}
    (hw : request_at agent first root m 0 (walk_start root suffix_of) = some w)
    (hw' : request_at agent first root n 0 (walk_start root suffix_of) = some w') :
    w.name < w'.name := by
  induction n, hmn using Nat.le_induction generalizing w' with
  | base =>
      obtain ⟨w₁, hw₁, hnext⟩ := exists_request_before hw'
      obtain rfl : w = w₁ := Option.some.inj (hw.symm.trans hw₁)
      exact lt_of_next_request hadvances hw hnext
  | succ n _ ih =>
      obtain ⟨w₁, hw₁, hnext⟩ := exists_request_before hw'
      exact (ih hw₁).trans (lt_of_next_request hadvances hw₁ hnext)

/-- Requests that differ in their names are no more than there are names. -/
theorem not_pending_of_increasing
    (hincreasing : ∀ m n x y, m < n → request_name agent first root suffix_of m = some x →
      request_name agent first root suffix_of n = some y → x < y)
    {names : Finset Oid}
    (hnames : ∀ n x, request_name agent first root suffix_of n = some x → x ∈ names) :
    walk agent first root names.card 0 (walk_start root suffix_of) ≠ .pending := by
  intro hpending
  have hlast := (walk_eq_pending_iff _ _ _).mp hpending
  have hsent : ∀ n ∈ Finset.range (names.card + 1), ∃ x,
      request_name agent first root suffix_of n = some x := by
    intro n hn
    have hle : n ≤ names.card := Nat.le_of_lt_succ (Finset.mem_range.mp hn)
    obtain ⟨w, hw⟩ := Option.isSome_iff_exists.mp (isSome_request_at_of_le hle hlast)
    exact ⟨w.name, by rw [request_name, hw]; rfl⟩
  have hcard : names.card < (Finset.range (names.card + 1)).card := by
    rw [Finset.card_range]
    omega
  have hmaps : ∀ n ∈ Finset.range (names.card + 1),
      (request_name agent first root suffix_of n).getD [] ∈ names := by
    intro n hn
    obtain ⟨x, hx⟩ := hsent n hn
    rw [hx]
    exact hnames n x hx
  obtain ⟨m, hm, n, hn, hne, heq⟩ := Finset.exists_ne_map_eq_of_card_lt_of_maps_to hcard hmaps
  obtain ⟨x, hx⟩ := hsent m hm
  obtain ⟨y, hy⟩ := hsent n hn
  rw [hx, hy, Option.getD_some, Option.getD_some] at heq
  subst heq
  rcases Nat.lt_or_gt_of_ne hne with hlt | hgt
  · exact lt_irrefl x (hincreasing m n x x hlt hx hy)
  · exact lt_irrefl x (hincreasing n m x x hgt hy hx)

/-- The walk makes progress exactly against an agent that goes on in the order of the names. -/
theorem progresses_iff_advances (agent : TableAgent) (first : CStr) (root : Oid)
    (suffix_of : AList fun _ : CStr => CStr) :
    Progresses agent first root suffix_of ↔ Advances agent first root suffix_of := by
  constructor
  · intro hprogresses n w vars hw hresponse hvars
    obtain ⟨w', hnext, hname⟩ :=
      exists_next_request (running_of_request_at rfl hw) hresponse hvars
    have hw' : request_at agent first root (n + 1) 0 (walk_start root suffix_of) = some w' := by
      rw [request_at_succ, hw, Nat.zero_add]
      exact hnext
    have hlt : w.name < w'.name := by
      apply hprogresses.increasing n (n + 1) w.name w'.name (Nat.lt_succ_self n)
      · rw [request_name, hw]
        rfl
      · rw [request_name, hw']
        rfl
    rw [hname] at hlt
    cases hlast : vars.getLast? with
    | none => exact absurd hlt (by simp [hlast])
    | some v => exact ⟨v, rfl, by simpa [hlast] using hlt⟩
  · intro hadvances
    have hincreasing : ∀ m n x y, m < n → request_name agent first root suffix_of m = some x →
        request_name agent first root suffix_of n = some y → x < y := by
      intro m n x y hmn hx hy
      obtain ⟨w, hw, rfl⟩ := Option.map_eq_some_iff.mp hx
      obtain ⟨w', hw', rfl⟩ := Option.map_eq_some_iff.mp hy
      exact increasing_of_advances hadvances hmn hw hw'
    exact ⟨hincreasing, fun names hnames => not_pending_of_increasing hincreasing hnames⟩

def emptyAgent : TableAgent where
  read_objid _ := some [1, 3, 6, 1, 2, 1, 2, 2, 1, 2]
  sess_open _ := true
  response _ _ _ := .success true []

theorem repeated_request :
    ¬Progresses emptyAgent ".1.3.6.1.2.1.2.2.1.2".toList [1, 3, 6, 1, 2, 1, 2, 2, 1, 2] ∅ := by
  intro hprogresses
  exact lt_irrefl _ (hprogresses.increasing 0 1 _ _ Nat.zero_lt_one rfl rfl)

end SnappCollector.Hosts
