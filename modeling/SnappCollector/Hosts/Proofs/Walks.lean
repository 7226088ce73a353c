import SnappCollector.Hosts.Proofs.OidTable

/-!
# What a walk over a table sends and records

A response changes the walk in three ways, each told by its variables alone: the maps get
the ones that belong to the table, the loop goes on if all of them do, and the next request
takes its name from the last of them.
-/

namespace SnappCollector.Hosts

open CLib Collection Config Data

def walk_start (root : Oid) (suffix_of : AList fun _ : CStr => CStr) : Walk :=
  ⟨true, root, suffix_of, ∅⟩

/-! ## One response -/

def BulkVariable.in_table (root : Oid) (v : BulkVariable) : Bool :=
  root <+: v.name && v.type = .value

structure Maps where
  suffix_of : AList fun _ : CStr => CStr
  value_of : AList fun _ : CStr => CStr

def Walk.maps (w : Walk) : Maps := ⟨w.suffix_of, w.value_of⟩

def record_variable (first : CStr) (maps : Maps) (v : BulkVariable) : Course Death Maps := do
  let suffix ← suffix_str first v.objid
  let value ← extract_value_from_raw v.before v.text
  return ⟨maps.suffix_of.insert value suffix, maps.value_of.insert suffix value⟩

/-- The name that the loop leaves: the one of the last variable, if it is of the table. -/
def next_name (root : Oid) (name : Oid) : List BulkVariable → Oid
  | [] => name
  | [v] => if v.in_table root then v.name else name
  | _ :: v :: vars => next_name root name (v :: vars)

section

variable {first : CStr} {root : Oid}

theorem record_variable_eq_returned {maps maps' : Maps} {v : BulkVariable} :
    record_variable first maps v = .returned maps' ↔
      ∃ suffix value, suffix_str first v.objid = .returned suffix ∧
        extract_value_from_raw v.before v.text = .returned value ∧
        maps' = ⟨maps.suffix_of.insert value suffix, maps.value_of.insert suffix value⟩ := by
  unfold record_variable
  simp only [Course.bind_eq_returned, Course.pure_eq, Course.returned.injEq]
  constructor
  · rintro ⟨suffix, hsuffix, value, hvalue, heq⟩
    exact ⟨suffix, value, hsuffix, hvalue, heq.symm⟩
  · rintro ⟨suffix, value, hsuffix, hvalue, heq⟩
    exact ⟨suffix, hsuffix, value, hvalue, heq.symm⟩

theorem walk_variable_of_in_table {v : BulkVariable} (h : v.in_table root = true) (last : Bool)
    (w : Walk) : walk_variable first root last v w = (do
      let maps ← record_variable first w.maps v
      return ⟨w.running, if last then v.name else w.name, maps.suffix_of, maps.value_of⟩) := by
  obtain ⟨hroot, htype⟩ : root <+: v.name ∧ v.type = .value := by
    simpa [BulkVariable.in_table] using h
  unfold walk_variable record_variable
  rw [if_neg (not_not.mpr hroot), if_pos htype]
  simp only [bind_assoc, Course.pure_eq, Course.returned_bind]
  rfl

theorem walk_variable_of_not_in_table {v : BulkVariable} (h : v.in_table root = false)
    (last : Bool) (w : Walk) :
    walk_variable first root last v w = .returned { w with running := false } := by
  unfold walk_variable
  by_cases hroot : root <+: v.name
  · have htype : v.type ≠ .value := by simpa [BulkVariable.in_table, hroot] using h
    rw [if_neg (not_not.mpr hroot), if_neg htype]
  · rw [if_pos hroot]

theorem walk_variables_eq (vars : List BulkVariable) (w : Walk) :
    walk_variables first root vars w = (do
      let maps ← (vars.filter (·.in_table root)).foldlM (record_variable first) w.maps
      return ⟨w.running && vars.all (·.in_table root), next_name root w.name vars,
        maps.suffix_of, maps.value_of⟩) := by
  induction vars generalizing w with
  | nil =>
      rw [walk_variables, List.filter_nil, List.all_nil, Bool.and_true]
      rfl
  | cons v vars ih =>
      unfold walk_variables
      cases hin : v.in_table root with
      | true =>
          rw [walk_variable_of_in_table hin, List.filter_cons_of_pos hin, List.foldlM_cons]
          simp only [bind_assoc, Course.pure_eq, Course.returned_bind, ih]
          refine bind_congr fun maps => bind_congr fun _ => ?_
          cases vars with
          | nil => simp [next_name, hin]
          | cons u vars => simp [next_name, hin]
      | false =>
          rw [walk_variable_of_not_in_table hin, Course.returned_bind, ih,
            List.filter_cons_of_neg (by simp [hin])]
          refine bind_congr fun _ => ?_
          cases vars with
          | nil => simp [next_name, hin]
          | cons u vars => simp [next_name, hin]

theorem decided_record_variables (first : CStr) (vars : List BulkVariable) (maps : Maps) :
    (vars.foldlM (record_variable first) maps).Decided
      (vars.all fun v => has_suffix first v.objid && has_value v.before v.text) := by
  refine Course.Decided.foldlM (fun maps v => ?_) vars maps
  exact (decided_suffix_str first v.objid).bind fun suffix =>
    (decided_extract_value_from_raw v.before v.text).bind_returned

theorem next_name_of_all_in_table {vars : List BulkVariable}
    (hall : vars.all (·.in_table root) = true) (name : Oid) :
    next_name root name vars = (vars.getLast?.map (·.name)).getD name := by
  induction vars with
  | nil => rfl
  | cons v vars ih =>
      obtain ⟨hin, hrest⟩ := (Bool.and_eq_true _ _).mp ((List.all_cons ..).symm.trans hall)
      cases vars with
      | nil => simp [next_name, hin]
      | cons u vars =>
          rw [next_name, ih hrest, List.getLast?_cons_cons]

/-! ## One request -/

def BulkResponse.variables : BulkResponse → List BulkVariable
  | .success true vars => vars
  | _ => []

variable {agent : TableAgent}

def walk_round (agent : TableAgent) (first : CStr) (root : Oid) (i : Nat) (w : Walk) :
    Course Death Walk :=
  match agent.response first i w.name with
  | .success true vars => walk_variables first root vars w
  | _ => .returned { w with running := false }

theorem walk_succ (fuel i : Nat) (w : Walk) : walk agent first root (fuel + 1) i w = (do
    let w ← walk_round agent first root i w
    if w.running then walk agent first root fuel (i + 1) w else return w) := by
  rw [walk, walk_round]
  cases agent.response first i w.name with
  | success noerror vars => cases noerror <;> rfl
  | timeout => rfl
  | other => rfl

theorem walk_round_ne_pending (i : Nat) (w : Walk) : walk_round agent first root i w ≠ .pending := by
  unfold walk_round
  split
  · rename_i vars _
    intro hpending
    have hdecided : (walk_variables first root vars w).Decided _ := decided_walk_variables vars w
    rw [hpending] at hdecided
    cases hall : vars.all (·.readable first root) with
    | true => simp [hall, Course.Decided] at hdecided
    | false => simp [hall, Course.Decided] at hdecided
  · nofun

def next_request (agent : TableAgent) (first : CStr) (root : Oid) (i : Nat) (w : Walk) :
    Option Walk :=
  match walk_round agent first root i w with
  | .returned w' => if w'.running then some w' else none
  | _ => none

theorem next_request_eq_some {i : Nat} {w w' : Walk} :
    next_request agent first root i w = some w' ↔
      walk_round agent first root i w = .returned w' ∧ w'.running = true := by
  unfold next_request
  cases walk_round agent first root i w with
  | returned w₁ =>
      cases hrunning : w₁.running with
      | true =>
          have hgoal : w₁ = w' ↔ w₁ = w' ∧ w'.running = true :=
            ⟨fun heq => ⟨heq, heq ▸ hrunning⟩, And.left⟩
          simpa [hrunning] using hgoal
      | false =>
          have hgoal : w₁ = w' → w'.running = false := fun heq => heq ▸ hrunning
          simpa [hrunning] using hgoal
  | failed => simp
  | died e => simp
  | pending => simp

theorem next_request_eq_some_iff {i : Nat} {w w' : Walk} (hrunning : w.running = true) :
    next_request agent first root i w = some w' ↔
      ∃ vars maps, agent.response first i w.name = .success true vars ∧
        vars.all (·.in_table root) = true ∧
        vars.foldlM (record_variable first) w.maps = .returned maps ∧
        w' = ⟨true, next_name root w.name vars, maps.suffix_of, maps.value_of⟩ := by
  rw [next_request_eq_some]
  constructor
  · rintro ⟨hround, hnext⟩
    unfold walk_round at hround
    split at hround
    · rename_i vars hresponse
      rw [walk_variables_eq, Course.bind_eq_returned, hrunning, Bool.true_and] at hround
      obtain ⟨maps, hmaps, hw'⟩ := hround
      cases hw'
      change vars.all (·.in_table root) = true at hnext
      rw [List.filter_eq_self.mpr (List.all_eq_true.mp hnext)] at hmaps
      exact ⟨vars, maps, hresponse, hnext, hmaps, by rw [hnext]⟩
    · cases hround
      cases hnext
  · rintro ⟨vars, maps, hresponse, hall, hmaps, rfl⟩
    refine ⟨?_, rfl⟩
    unfold walk_round
    rw [hresponse]
    dsimp only
    rw [walk_variables_eq, List.filter_eq_self.mpr (List.all_eq_true.mp hall), hmaps,
      Course.returned_bind, hrunning, hall]
    rfl

theorem all_readable_iff {vars : List BulkVariable} (hall : ∀ v ∈ vars, v.in_table root = true) :
    (∀ v ∈ vars, v.readable first root = true) ↔
      (vars.all fun v => has_suffix first v.objid && has_value v.before v.text) = true := by
  rw [List.all_eq_true]
  refine forall_congr' fun v => forall_congr' fun hv => ?_
  have hin := hall v hv
  unfold BulkVariable.in_table at hin
  rw [BulkVariable.readable, hin, Bool.not_true, Bool.false_or]

theorem name_of_next_request {i : Nat} {w w' : Walk} (hrunning : w.running = true)
    (h : next_request agent first root i w = some w') :
    ∃ vars, agent.response first i w.name = .success true vars ∧
      (∀ v ∈ vars, v.in_table root = true ∧ v.readable first root = true) ∧
      w'.name = (vars.getLast?.map (·.name)).getD w.name := by
  obtain ⟨vars, maps, hresponse, hall, hmaps, rfl⟩ := (next_request_eq_some_iff hrunning).mp h
  have hin : ∀ v ∈ vars, v.in_table root = true := List.all_eq_true.mp hall
  have hreadable : ∀ v ∈ vars, v.readable first root = true := by
    apply (all_readable_iff hin).mpr
    rw [← (decided_record_variables first vars w.maps).survives_iff, hmaps]
    exact Course.survives_returned maps
  exact ⟨vars, hresponse, fun v hv => ⟨hin v hv, hreadable v hv⟩,
    next_name_of_all_in_table hall w.name⟩

theorem exists_next_request {i : Nat} {w : Walk} (hrunning : w.running = true)
    {vars : List BulkVariable} (hresponse : agent.response first i w.name = .success true vars)
    (hvars : ∀ v ∈ vars, v.in_table root = true ∧ v.readable first root = true) :
    ∃ w', next_request agent first root i w = some w' ∧
      w'.name = (vars.getLast?.map (·.name)).getD w.name := by
  have hin : ∀ v ∈ vars, v.in_table root = true := fun v hv => (hvars v hv).1
  have hall : vars.all (·.in_table root) = true := List.all_eq_true.mpr hin
  have hdecided := decided_record_variables first vars w.maps
  rw [(all_readable_iff hin).mp fun v hv => (hvars v hv).2] at hdecided
  obtain ⟨maps, hmaps⟩ := hdecided.returns
  exact ⟨_, (next_request_eq_some_iff hrunning).mpr ⟨vars, maps, hresponse, hall, hmaps, rfl⟩,
    next_name_of_all_in_table hall w.name⟩

/-! ## The requests of a walk -/

/-- The walk as it sends the request that comes `n` requests after the one with number `i`. -/
def request_at (agent : TableAgent) (first : CStr) (root : Oid) : Nat → Nat → Walk → Option Walk
  | 0, _, w => some w
  | n + 1, i, w => (next_request agent first root i w).bind (request_at agent first root n (i + 1))

theorem request_at_succ (n i : Nat) (w : Walk) :
    request_at agent first root (n + 1) i w =
      (request_at agent first root n i w).bind (next_request agent first root (i + n)) := by
  induction n generalizing i w with
  | zero => simp [request_at]
  | succ n ih =>
      rw [request_at, request_at, Option.bind_assoc]
      refine Option.bind_congr fun w' _ => ?_
      rw [ih, Nat.add_right_comm, Nat.add_assoc]

theorem running_of_request_at {n i : Nat} {w w' : Walk} (hrunning : w.running = true)
    (h : request_at agent first root n i w = some w') : w'.running = true := by
  cases n with
  | zero =>
      cases h
      exact hrunning
  | succ n =>
      rw [request_at_succ, Option.bind_eq_some_iff] at h
      obtain ⟨w₁, _, hnext⟩ := h
      exact (next_request_eq_some.mp hnext).2

theorem walk_eq_pending_iff (fuel i : Nat) (w : Walk) :
    walk agent first root fuel i w = .pending ↔
      (request_at agent first root fuel i w).isSome = true := by
  induction fuel generalizing i w with
  | zero => simp [walk, request_at]
  | succ fuel ih =>
      rw [walk_succ, request_at]
      unfold next_request
      cases hround : walk_round agent first root i w with
      | returned w' =>
          rw [Course.returned_bind]
          cases hrunning : w'.running with
          | true => simp [hrunning, ih]
          | false => simp [hrunning]
      | failed => simp
      | died e => simp
      | pending => exact absurd hround (walk_round_ne_pending i w)

theorem exists_request_before {n : Nat} {w w' : Walk}
    (h : request_at agent first root (n + 1) 0 w = some w') :
    ∃ w₁, request_at agent first root n 0 w = some w₁ ∧
      next_request agent first root n w₁ = some w' := by
  rw [request_at_succ, Option.bind_eq_some_iff, Nat.zero_add] at h
  exact h

theorem isSome_request_at_of_le {m n : Nat} {w : Walk} (hmn : m ≤ n)
    (h : (request_at agent first root n 0 w).isSome = true) :
    (request_at agent first root m 0 w).isSome = true := by
  induction n, hmn using Nat.le_induction with
  | base => exact h
  | succ n hmn ih =>
      obtain ⟨w', hw'⟩ := Option.isSome_iff_exists.mp h
      obtain ⟨w₁, hw₁, _⟩ := exists_request_before hw'
      exact ih (Option.isSome_iff_exists.mpr ⟨w₁, hw₁⟩)

/-! ## What is recorded -/

def recorded (agent : TableAgent) (first : CStr) (root : Oid) :
    Nat → Nat → Walk → List BulkVariable
  | 0, _, _ => []
  | fuel + 1, i, w =>
      (agent.response first i w.name).variables.filter (·.in_table root) ++
        ((next_request agent first root i w).map (recorded agent first root fuel (i + 1))).getD []

theorem maps_of_walk_round {i : Nat} {w w' : Walk}
    (h : walk_round agent first root i w = .returned w') :
    ((agent.response first i w.name).variables.filter (·.in_table root)).foldlM
      (record_variable first) w.maps = .returned w'.maps := by
  unfold walk_round at h
  split at h
  · rename_i vars hresponse
    rw [walk_variables_eq, Course.bind_eq_returned] at h
    obtain ⟨maps, hmaps, hw'⟩ := h
    cases hw'
    rw [hresponse]
    exact hmaps
  · rename_i hother
    cases h
    unfold BulkResponse.variables
    split
    · rename_i vars hresponse
      exact absurd hresponse (hother vars)
    · rfl

theorem maps_of_walk {fuel i : Nat} {w w' : Walk}
    (h : walk agent first root fuel i w = .returned w') :
    (recorded agent first root fuel i w).foldlM (record_variable first) w.maps =
      .returned w'.maps := by
  induction fuel generalizing i w with
  | zero => cases h
  | succ fuel ih =>
      rw [walk_succ, Course.bind_eq_returned] at h
      obtain ⟨w₁, hround, hrest⟩ := h
      rw [recorded, List.foldlM_append, maps_of_walk_round hround, Course.returned_bind]
      cases hrunning : w₁.running with
      | true =>
          rw [next_request_eq_some.mpr ⟨hround, hrunning⟩]
          rw [if_pos hrunning] at hrest
          exact ih hrest
      | false =>
          have hnone : next_request agent first root i w = none := by
            simp [next_request, hround, hrunning]
          rw [if_neg (by simp [hrunning])] at hrest
          cases hrest
          rw [hnone]
          rfl

theorem walk_of_not_all_in_table {i : Nat} {w : Walk} {vars : List BulkVariable}
    (hresponse : agent.response first i w.name = .success true vars)
    (hall : vars.all (·.in_table root) = false)
    (hreadable : ∀ v ∈ vars.filter (·.in_table root), v.readable first root = true) :
    ∃ w', walk agent first root 1 i w = .returned w' ∧
      recorded agent first root 1 i w = vars.filter (·.in_table root) := by
  have hdecided := decided_record_variables first (vars.filter (·.in_table root)) w.maps
  rw [(all_readable_iff fun v hv => (List.mem_filter.mp hv).2).mp hreadable] at hdecided
  obtain ⟨maps, hmaps⟩ := hdecided.returns
  have hround : walk_round agent first root i w = .returned
      ⟨false, next_name root w.name vars, maps.suffix_of, maps.value_of⟩ := by
    unfold walk_round
    rw [hresponse]
    dsimp only
    rw [walk_variables_eq, hmaps, Course.returned_bind, hall, Bool.and_false]
    rfl
  have hnone : next_request agent first root i w = none := by
    unfold next_request
    rw [hround]
    rfl
  refine ⟨_, by rw [walk_succ, hround]; rfl, ?_⟩
  rw [recorded, hresponse, hnone]
  exact List.append_nil _

theorem walk_of_next_request {fuel i : Nat} {w w' : Walk}
    (hnext : next_request agent first root i w = some w') :
    walk agent first root (fuel + 1) i w = walk agent first root fuel (i + 1) w' := by
  obtain ⟨hround, hrunning⟩ := next_request_eq_some.mp hnext
  rw [walk_succ, hround, Course.returned_bind, if_pos hrunning]

end

end SnappCollector.Hosts
