import SnappCollector.Config.Proofs.LoadedTables
import SnappCollector.Hosts.OidTable

/-!
# Where loading the tables of the hosts ends the process

A walk throws at an instance whose printed name ends with the text that is searched for,
and perhaps at one whose value cannot be told from its printed form.  Everything else that
an agent can answer ends the walk or lets it go on.
-/

namespace SnappCollector.Hosts

open CLib Collection Config Data

/-! ## Variables -/

def has_suffix (first temp_string1 : CStr) : Bool :=
  (strstr temp_string1 (search_string first)).all fun found =>
    found + (search_string first).length < temp_string1.length

/-- There is a value, or nothing that looks like the end of one in front of it. -/
def has_value (before : Char) (raw : CStr) : Bool :=
  (value_match (raw.take (STD_STRING_SIZE - 1))).getD [] ≠ [] || before ≠ '"'

def BulkVariable.readable (first : CStr) (root : Oid) (v : BulkVariable) : Bool :=
  !(root <+: v.name && v.type = .value) || has_suffix first v.objid && has_value v.before v.text

theorem decided_suffix_str (first temp_string1 : CStr) :
    (suffix_str first temp_string1).Decided (has_suffix first temp_string1) := by
  unfold suffix_str has_suffix
  cases strstr temp_string1 (search_string first) with
  | none => exact .of_returned _
  | some found =>
      show (if found + (search_string first).length + 1 ≤ temp_string1.length then _ else _ :
        Course Death CStr).Decided (found + (search_string first).length < temp_string1.length)
      by_cases hlt : found + (search_string first).length < temp_string1.length
      · rw [if_pos (by omega), decide_eq_true hlt]
        exact .of_returned _
      · rw [if_neg (by omega), decide_eq_false hlt]
        exact ⟨.terminate, rfl⟩

theorem decided_extract_value_from_raw (before : Char) (raw : CStr) :
    (extract_value_from_raw before raw).Decided (has_value before raw) := by
  unfold extract_value_from_raw has_value
  dsimp only
  by_cases hempty : (value_match (raw.take (STD_STRING_SIZE - 1))).getD [] = []
  · rw [hempty]
    by_cases hquote : before = '"'
    · simpa [hquote] using ⟨.terminate, rfl⟩
    · simpa [hquote, eq_comm] using Course.Decided.of_returned (ε := Death) ([] : CStr)
  · simp only [hempty, if_false, ne_eq, not_false_eq_true, decide_true, Bool.true_or]
    split
    · exact .of_returned _
    · exact .of_returned _

section

variable {first : CStr} {root : Oid}

theorem decided_walk_variable (last : Bool) (v : BulkVariable) (w : Walk) :
    (walk_variable first root last v w).Decided (v.readable first root) := by
  unfold walk_variable BulkVariable.readable
  by_cases hroot : root <+: v.name
  · rw [if_neg (not_not.mpr hroot)]
    by_cases htype : v.type = .value
    · rw [if_pos htype]
      simp only [hroot, htype, decide_true, Bool.and_self, Bool.not_true, Bool.false_or]
      exact (decided_suffix_str first v.objid).bind fun suffix =>
        (decided_extract_value_from_raw v.before v.text).bind_returned
    · rw [if_neg htype]
      simpa [htype] using Course.Decided.of_returned (ε := Death) { w with running := false }
  · rw [if_pos hroot]
    simpa [hroot] using Course.Decided.of_returned (ε := Death) { w with running := false }

theorem decided_walk_variables (vars : List BulkVariable) (w : Walk) :
    (walk_variables first root vars w).Decided (vars.all (·.readable first root)) := by
  induction vars generalizing w with
  | nil => exact .of_returned w
  | cons v vars ih =>
      unfold walk_variables
      rw [List.all_cons]
      exact (decided_walk_variable vars.isEmpty v w).bind ih

/-! ## Walks -/

variable {agent : TableAgent}

def WalkReady (agent : TableAgent) (first : CStr) (root : Oid) : Nat → Nat → Walk → Prop
  | 0, _, _ => True
  | fuel + 1, i, w =>
      ∀ vars, agent.response first i w.name = .success true vars →
        vars.all (·.readable first root) = true ∧
          ∀ w', walk_variables first root vars w = .returned w' → w'.running = true →
            WalkReady agent first root fuel (i + 1) w'

theorem survives_walk (fuel i : Nat) (w : Walk) :
    (walk agent first root fuel i w).Survives ↔ WalkReady agent first root fuel i w := by
  induction fuel generalizing i w with
  | zero => simp [walk, WalkReady]
  | succ fuel ih =>
      unfold walk WalkReady
      cases agent.response first i w.name with
      | timeout => simp
      | other => simp
      | success noerror vars =>
          cases noerror with
          | false => simp
          | true =>
              simp only [BulkResponse.success.injEq, true_and, forall_eq']
              rw [Course.survives_bind, (decided_walk_variables vars w).survives_iff]
              refine and_congr_right fun _ => forall_congr' fun w' => imp_congr_right fun _ => ?_
              by_cases hrunning : w'.running = true
              · rw [if_pos hrunning, ih]
                simp [hrunning]
              · rw [if_neg hrunning]
                simp [hrunning]

end

/-! ## Hosts -/

def TablesReady (agent : TableAgent) (fuel : Nat) :
    List (Sigma fun _ : CStr => OID_Value_Table) → Prop
  | [] => True
  | ⟨first, table⟩ :: rest =>
      ∀ root, agent.read_objid first = some root → agent.sess_open first = true →
        WalkReady agent first root fuel 0 ⟨true, root, table.suffix_of, ∅⟩ ∧
          ∀ w, walk agent first root fuel 0 ⟨true, root, table.suffix_of, ∅⟩ = .returned w →
            TablesReady agent fuel rest

theorem survives_load_oid_tables {agent : TableAgent} {fuel : Nat}
    {tables : List (Sigma fun _ : CStr => OID_Value_Table)}
    (hkeys : ∀ entry ∈ tables, entry.2.oid = entry.1) (info : Host_Info) :
    (load_oid_tables agent fuel tables info).Survives ↔ TablesReady agent fuel tables := by
  induction tables generalizing info with
  | nil => simp [load_oid_tables, TablesReady]
  | cons entry rest ih =>
      obtain ⟨first, table⟩ := entry
      have hkey : first = table.oid := (hkeys _ (List.mem_cons_self ..)).symm
      have hrest := ih fun entry hentry => hkeys entry (List.mem_cons_of_mem _ hentry)
      unfold load_oid_tables TablesReady
      rw [Course.survives_bind, survives_assert, decide_eq_true hkey]
      simp only [true_and, assert_eq_returned, forall_const]
      cases agent.read_objid first with
      | none => simp
      | some root =>
          simp only [Option.some.injEq, forall_eq']
          by_cases hopen : agent.sess_open first = true
          · rw [if_pos hopen, Course.survives_bind, survives_walk]
            simp only [hopen, forall_const, hrest]
          · rw [if_neg hopen]
            simp [hopen]

def HostReady (agent : TableAgent) (fuel : Nat) (info : Host_Info) : Prop :=
  TablesReady agent fuel (in_order info.oid_table)

theorem survives_thread_start {agent : TableAgent} {fuel : Nat} {info : Host_Info}
    (hkeyed : Keyed info) :
    (thread_start agent fuel info).Survives ↔ HostReady agent fuel info := by
  have hkeys : ∀ entry ∈ in_order info.oid_table, entry.2.oid = entry.1 := by
    intro entry hentry
    apply hkeyed entry.1 entry.2
    exact AList.mem_lookup_iff.mpr ((List.mem_insertionSort _).mp hentry)
  unfold thread_start load_oid_table
  rw [Course.survives_bind, survives_load_oid_tables hkeys]
  exact and_iff_left fun _ _ => Course.survives_returned _

structure HostsReady (answers : TableAnswers) (fuel : Nat) (host : List Host_Info) : Prop where
  created : ∀ i < host.length, answers.sem_wait i = true ∧ answers.pthread_create i = true
  loaded : ∀ (i : Nat) (info : Host_Info), host[i]? = some info →
    HostReady (answers.agent i) fuel info

theorem decided_create_threads (answers : TableAnswers) (n : Nat) :
    ((List.range n).forM (create_thread answers)).Decided
      ((List.range n).all fun i => answers.sem_wait i && answers.pthread_create i) := by
  refine Course.Decided.forM (fun i => ?_) (List.range n)
  exact (decided_assert (answers.sem_wait i)).bind fun _ =>
    decided_assert (answers.pthread_create i)

theorem survives_load_host_tables {answers : TableAnswers} {fuel : Nat}
    {host_table : Host_Info_Table} (hkeyed : ∀ info ∈ host_table.host, Keyed info) :
    (load_host_tables answers fuel host_table).Survives ↔
      HostsReady answers fuel host_table.host := by
  have hthreads : (∀ x ∈ host_table.host.zipIdx.map (fun entry =>
        thread_start (answers.agent entry.2) fuel entry.1), x.Survives) ↔
      ∀ (i : Nat) (info : Host_Info), host_table.host[i]? = some info →
        HostReady (answers.agent i) fuel info := by
    constructor
    · intro hall i info hinfo
      have hmem : (info, i) ∈ host_table.host.zipIdx := List.mk_mem_zipIdx_iff_getElem?.mpr hinfo
      have hsurvives := hall _ (List.mem_map_of_mem hmem)
      exact (survives_thread_start (hkeyed info (List.mem_of_getElem? hinfo))).mp hsurvives
    · intro hall x hx
      obtain ⟨⟨info, i⟩, hmem, rfl⟩ := List.mem_map.mp hx
      have hinfo : host_table.host[i]? = some info := List.mk_mem_zipIdx_iff_getElem?.mp hmem
      apply (survives_thread_start (hkeyed info (List.mem_of_getElem? hinfo))).mpr
      exact hall i info hinfo
  have hcreated := decided_create_threads answers host_table.host.length
  unfold load_host_tables
  rw [Course.survives_bind, hcreated.survives_iff]
  have hall : (List.range host_table.host.length).all (fun i =>
        answers.sem_wait i && answers.pthread_create i) = true ↔
      ∀ i < host_table.host.length, answers.sem_wait i = true ∧ answers.pthread_create i = true := by
    simp
  constructor
  · rintro ⟨hcreate, hrest⟩
    rw [hcreate] at hcreated
    obtain ⟨created, hreturns⟩ := hcreated.returns
    have hloads := hrest created hreturns
    rw [Course.survives_bind, Course.survives_all] at hloads
    exact ⟨hall.mp hcreate, hthreads.mp hloads.1⟩
  · intro hready
    refine ⟨hall.mpr hready.created, fun _ _ => ?_⟩
    rw [Course.survives_bind, Course.survives_all]
    exact ⟨hthreads.mpr hready.loaded, fun _ _ => Course.survives_returned _⟩

end SnappCollector.Hosts
