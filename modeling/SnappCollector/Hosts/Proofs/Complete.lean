import SnappCollector.Data.Lexicographic
import SnappCollector.Hosts.Proofs.Walks

/-!
# Walks over the table of a correct agent

A correct agent answers with the next instances of its MIB, as many as it likes at a time.
The pages that lie in the table leave the walk in front of what has not been read; the first
page that does not, or that is followed by the end of the MIB, is the last one.
-/

namespace SnappCollector.Hosts

open CLib Collection Config Data

structure Mib where
  instances : List BulkVariable
  increasing : IncreasingBy (·.name) instances
  value : ∀ v ∈ instances, v.type = .value

namespace Mib

def greater (mib : Mib) (x : Oid) : List BulkVariable := above (·.name) x mib.instances

def strictly_below (mib : Mib) (root : Oid) : List BulkVariable :=
  mib.instances.filter fun v => root <+: v.name ∧ v.name ≠ root

structure EndOf (vars : List BulkVariable) (x : Oid) (stop : BulkVariable) : Prop where
  type : stop.type = .ENDOFMIBVIEW
  name : stop.name = (vars.getLast?.map (·.name)).getD x

/-- The agent answers each request with one to fifteen of the next instances, and with the
end of the MIB if it has no more. -/
def Correct (mib : Mib) (agent : TableAgent) (first : CStr) : Prop :=
  ∀ i x, ∃ m stop, 1 ≤ m ∧ m ≤ 15 ∧ EndOf (mib.greater x) x stop ∧
    agent.response first i x = .success true
      (if (mib.greater x).length < m then mib.greater x ++ [stop] else (mib.greater x).take m)

/-- The walk ends, the variables that it records are the instances strictly below the root,
and these fill its maps. -/
def Complete (mib : Mib) (agent : TableAgent) (first : CStr) (root : Oid)
    (suffix_of : AList fun _ : CStr => CStr) : Prop :=
  ∃ fuel w, walk agent first root fuel 0 (walk_start root suffix_of) = .returned w ∧
    recorded agent first root fuel 0 (walk_start root suffix_of) = mib.strictly_below root ∧
    (mib.strictly_below root).foldlM (record_variable first) ⟨suffix_of, ∅⟩ = .returned w.maps

variable {mib : Mib} {agent : TableAgent} {first : CStr} {root : Oid}

theorem mem_greater {x : Oid} {v : BulkVariable} :
    v ∈ mib.greater x ↔ v ∈ mib.instances ∧ x < v.name := mem_above

theorem increasing_greater (mib : Mib) (x : Oid) : IncreasingBy (·.name) (mib.greater x) :=
  mib.increasing.above x

theorem in_table_eq {v : BulkVariable} (hv : v ∈ mib.instances) :
    v.in_table root = decide (root <+: v.name) := by
  simp [BulkVariable.in_table, mib.value v hv]

theorem not_in_table_of_endOf {vars : List BulkVariable} {x : Oid} {stop : BulkVariable}
    (h : EndOf vars x stop) : stop.in_table root = false := by
  simp [BulkVariable.in_table, h.type]

theorem filter_greater_root :
    (mib.greater root).filter (·.in_table root) = mib.strictly_below root := by
  rw [greater, above, List.filter_filter, strictly_below]
  apply List.filter_congr
  intro v hv
  rw [in_table_eq hv]
  by_cases hroot : root <+: v.name
  · simp [hroot, lt_iff_ne_of_isPrefix hroot]
  · simp [hroot]

theorem greater_last {x : Oid} {m : Nat} {last : BulkVariable}
    (hlast : ((mib.greater x).take m).getLast? = some last) :
    mib.greater last.name = (mib.greater x).drop m := by
  have hmem : last ∈ mib.greater x := List.mem_of_mem_take (List.mem_of_getLast? hlast)
  have hpage := mib.increasing_greater x
  rw [← List.take_append_drop m (mib.greater x)] at hpage
  have habove := above_key_getLast hpage hlast
  rw [List.take_append_drop] at habove
  rw [← habove]
  exact (above_above (mem_greater.mp hmem).2.le).symm

/-- Behind a page that leaves the table there is nothing more of it. -/
theorem filter_drop_of_not_all {x : Oid} (hroot : root <+: x) {m : Nat}
    (hall : ((mib.greater x).take m).all (·.in_table root) = false) :
    ((mib.greater x).drop m).filter (·.in_table root) = [] := by
  obtain ⟨u, hu, hout⟩ := List.all_eq_false.mp hall
  have hmem := mem_greater.mp (List.mem_of_mem_take hu)
  have hpage := mib.increasing_greater x
  rw [← List.take_append_drop m (mib.greater x)] at hpage
  rw [in_table_eq hmem.1, decide_eq_true_eq] at hout
  apply List.filter_eq_nil_iff.mpr
  intro v hv
  have hin := mem_greater.mp (List.mem_of_mem_drop hv)
  have hlt : u.name < v.name := (List.pairwise_append.mp hpage).2.2 u hu v hv
  rw [in_table_eq hin.1, decide_eq_true_eq]
  exact not_isPrefix_of_lt hroot hmem.2 hout hlt

theorem next_request_of_page {i : Nat} {w : Walk} (hrunning : w.running = true) {m : Nat}
    (hresponse : agent.response first i w.name = .success true ((mib.greater w.name).take m))
    (hpage : (mib.greater w.name).take m ≠ [])
    (hin : ∀ v ∈ (mib.greater w.name).take m, v.in_table root = true)
    (hreadable : ∀ v ∈ (mib.greater w.name).take m, v.readable first root = true) :
    ∃ w', next_request agent first root i w = some w' ∧ root <+: w'.name ∧
      mib.greater w'.name = (mib.greater w.name).drop m := by
  obtain ⟨w', hnext, hname⟩ :=
    exists_next_request hrunning hresponse fun v hv => ⟨hin v hv, hreadable v hv⟩
  obtain ⟨last, hlast⟩ := Option.ne_none_iff_exists'.mp (mt List.getLast?_eq_none_iff.mp hpage)
  have hmem := List.mem_of_getLast? hlast
  have hroot := hin last hmem
  rw [in_table_eq (mem_greater.mp (List.mem_of_mem_take hmem)).1, decide_eq_true_eq] at hroot
  rw [hlast, Option.map_some, Option.getD_some] at hname
  exact ⟨w', hnext, hname ▸ hroot, hname ▸ greater_last hlast⟩

/-- From every request the walk reads the rest of the table, by induction on the instances
that the agent can still send. -/
theorem walk_correct (hcorrect : mib.Correct agent first) {i : Nat} {w : Walk}
    (hrunning : w.running = true) (hroot : root <+: w.name)
    (hreadable : ∀ v ∈ (mib.greater w.name).filter (·.in_table root),
      v.readable first root = true) :
    ∃ fuel w', walk agent first root fuel i w = .returned w' ∧
      recorded agent first root fuel i w = (mib.greater w.name).filter (·.in_table root) := by
  induction hlength : (mib.greater w.name).length using Nat.strong_induction_on
    generalizing i w with
  | _ n ih =>
    obtain ⟨m, stop, hpos, -, hend, hresponse⟩ := hcorrect i w.name
    by_cases hfew : (mib.greater w.name).length < m
    · -- the end of the MIB
      rw [if_pos hfew] at hresponse
      have hall : (mib.greater w.name ++ [stop]).all (·.in_table root) = false := by
        simp [not_in_table_of_endOf hend]
      have hfilter : (mib.greater w.name ++ [stop]).filter (·.in_table root) =
          (mib.greater w.name).filter (·.in_table root) := by
        simp [not_in_table_of_endOf hend]
      rw [← hfilter] at hreadable ⊢
      exact ⟨1, walk_of_not_all_in_table hresponse hall hreadable⟩
    · rw [if_neg hfew] at hresponse
      have hsplit : (mib.greater w.name).filter (·.in_table root) =
          ((mib.greater w.name).take m).filter (·.in_table root) ++
            ((mib.greater w.name).drop m).filter (·.in_table root) := by
        rw [← List.filter_append, List.take_append_drop]
      rw [hsplit] at hreadable ⊢
      cases hall : ((mib.greater w.name).take m).all (·.in_table root) with
      | false =>
          -- the end of the table
          rw [filter_drop_of_not_all hroot hall, List.append_nil] at hreadable ⊢
          exact ⟨1, walk_of_not_all_in_table hresponse hall hreadable⟩
      | true =>
          have hin := List.all_eq_true.mp hall
          rw [List.filter_eq_self.mpr hin] at hreadable ⊢
          have hpage : (mib.greater w.name).take m ≠ [] := by
            apply List.ne_nil_of_length_pos
            rw [List.length_take]
            omega
          obtain ⟨w₁, hnext, hroot₁, hrest⟩ := next_request_of_page hrunning hresponse hpage hin
            fun v hv => hreadable v (List.mem_append_left _ hv)
          have hshorter : (mib.greater w₁.name).length < n := by
            rw [hrest, List.length_drop]
            omega
          rw [← hrest] at hreadable ⊢
          obtain ⟨fuel, w', hwalk, hrecorded⟩ := ih _ hshorter (next_request_eq_some.mp hnext).2
            hroot₁ (fun v hv => hreadable v (List.mem_append_right _ hv)) rfl
          refine ⟨fuel + 1, w', (walk_of_next_request hnext).trans hwalk, ?_⟩
          rw [recorded, hresponse, hnext, Option.map_some, Option.getD_some, hrecorded]
          exact congrArg (· ++ _) (List.filter_eq_self.mpr hin)

theorem in_table_of_strictly_below {v : BulkVariable} (hv : v ∈ mib.strictly_below root) :
    v.in_table root = true := by
  rw [← filter_greater_root] at hv
  exact (List.mem_filter.mp hv).2

theorem readable_of_complete {suffix_of : AList fun _ : CStr => CStr}
    (h : mib.Complete agent first root suffix_of) :
    ∀ v ∈ mib.strictly_below root, v.readable first root = true := by
  obtain ⟨fuel, w, _, _, hmaps⟩ := h
  apply (all_readable_iff fun v hv => in_table_of_strictly_below hv).mpr
  rw [← (decided_record_variables first _ ⟨suffix_of, ∅⟩).survives_iff, hmaps]
  exact Course.survives_returned _

/-- The walk over the table of a correct agent is complete exactly if every instance below
the root can be read. -/
theorem complete_iff_readable (hcorrect : mib.Correct agent first) (root : Oid)
    (suffix_of : AList fun _ : CStr => CStr) :
    mib.Complete agent first root suffix_of ↔
      ∀ v ∈ mib.strictly_below root, v.readable first root = true := by
  constructor
  · exact readable_of_complete
  · intro hreadable
    rw [← filter_greater_root] at hreadable
    have hends : ∃ fuel w, walk agent first root fuel 0 (walk_start root suffix_of) = .returned w ∧
        recorded agent first root fuel 0 (walk_start root suffix_of) =
          (mib.greater root).filter (·.in_table root) :=
      walk_correct hcorrect rfl List.prefix_rfl hreadable
    rw [filter_greater_root] at hends
    obtain ⟨fuel, w, hwalk, hrecorded⟩ := hends
    have hmaps := maps_of_walk hwalk
    rw [hrecorded] at hmaps
    exact ⟨fuel, w, hwalk, hrecorded, hmaps⟩

/-! ## The addresses of a host -/

def full_pages (mib : Mib) (root : Oid) : TableAgent where
  read_objid _ := some root
  sess_open _ := true
  response _ _ x := .success true
    (if (mib.greater x).length < 15 then mib.greater x ++
      [⟨⟨.ENDOFMIBVIEW, []⟩, ((mib.greater x).getLast?.map (·.name)).getD x, [], ' '⟩]
    else (mib.greater x).take 15)

theorem correct_full_pages (mib : Mib) (root : Oid) (first : CStr) :
    mib.Correct (mib.full_pages root) first :=
  fun _ _ => ⟨15, _, by omega, le_rfl, ⟨rfl, rfl⟩, rfl⟩

def ifIndex_root : Oid := [1, 3, 6, 1, 2, 1, 4, 20, 1, 2]

def ofAddress (address : List Nat) : Mib where
  instances := [{
    type := .value
    text := "INTEGER: 2".toList
    name := ifIndex_root ++ address
    objid := "IP-MIB::ipAdEntIfIndex".toList ++ address.flatMap fun n => '.' :: dec n
    before := ' ' }]
  increasing := List.pairwise_singleton _ _
  value v hv := by rw [List.mem_singleton.mp hv]

theorem complete_loopback :
    (ofAddress [127, 0, 0, 1]).Complete ((ofAddress [127, 0, 0, 1]).full_pages ifIndex_root)
      ".1.3.6.1.2.1.4.20.1.2".toList ifIndex_root ∅ :=
  (complete_iff_readable (correct_full_pages _ _ _) _ _).mpr (by decide)

/-- The end of this address is the text that is searched for, and nothing follows it. -/
theorem incomplete_address :
    (ofAddress [10, 20, 1, 2]).Correct ((ofAddress [10, 20, 1, 2]).full_pages ifIndex_root)
        ".1.3.6.1.2.1.4.20.1.2".toList ∧
      ¬(ofAddress [10, 20, 1, 2]).Complete ((ofAddress [10, 20, 1, 2]).full_pages ifIndex_root)
        ".1.3.6.1.2.1.4.20.1.2".toList ifIndex_root ∅ := by
  refine ⟨correct_full_pages _ _ _, fun hcomplete => ?_⟩
  have hreadable := readable_of_complete hcomplete
  revert hreadable
  decide

end Mib

end SnappCollector.Hosts
