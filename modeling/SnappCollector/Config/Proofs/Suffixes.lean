import SnappCollector.Collection.GetCollect
import SnappCollector.Config.LoadTables
import SnappCollector.Config.Suffixes

/-!
# Every collection is polled at its own OIDs

What a suffix is mapped to by the tables of a host is a chain of lookups, which
may fail.  The code writes both a failure and an empty result as the empty text,
and leaves the suffix alone on a host whose tables were not loaded; the requests
of `get_collect` are those of the resolved suffix except where this matters.
-/

namespace SnappCollector.Config

open CLib Collection Data

/-! ## Resolution -/

def suffixes (info : Host_Info) (oid : CStr) : AList fun _ : CStr => CStr :=
  (info.oid_table.lookup oid).elim ∅ (·.suffix_of)

/-- All that resolution uses of a host. -/
def lookups (info : Host_Info) : Int32 × (CStr → AList fun _ : CStr => CStr) :=
  (info.mapping_done, suffixes info)

/-- The value is replaced through the table of one OID after the other. -/
def resolve (info : Host_Info) (value : CStr) (oids : List CStr) : Option CStr :=
  oids.foldlM (fun value oid => (suffixes info oid).lookup value) value

def resolved_suffix (db : OID_mapping_sequence_db) (info : Host_Info) (c : SQL_Collection) :
    Option CStr :=
  if c.oid_mapping_sequence_db_id = -1 then some c.premaping_oid_suffix
  else if info.mapping_done = 1 then
    (sequence_of db c).bind fun seq => resolve info c.premaping_oid_suffix seq.oid
  else none

def oids_at (cls : SQL_Collection_Class) (s : CStr) : List CStr :=
  cls.oid.map fun oid => if s = [] then oid.oid_prefix else oid.oid_prefix ++ ".".toList ++ s

def resolved_variables (read_objid : CStr → Option Oid) (db : OID_mapping_sequence_db)
    (info : Host_Info) (cls : SQL_Collection_Class) (c : SQL_Collection) : Option (List Oid) :=
  (resolved_suffix db info c).bind fun s =>
    ((oids_at cls s).mapM read_objid).map (· ++ [timeticks])

/-- The suffix that the code leaves in a collection. -/
def left_suffix (db : OID_mapping_sequence_db) (info : Host_Info) (c : SQL_Collection) : CStr :=
  if info.mapping_done = 1 then (resolved_suffix db info c).getD []
  else c.post_mapping_oid_suffix

/-! ## The loops -/

theorem oid_table_at_spec (info : Host_Info) (oid : CStr) :
    (oid_table_at oid info).1.suffix_of = suffixes info oid ∧
      lookups (oid_table_at oid info).2 = lookups info := by
  cases hlookup : info.oid_table.lookup oid with
  | some table => simp [oid_table_at, suffixes, hlookup]
  | none =>
      refine ⟨by simp [oid_table_at, suffixes, hlookup], ?_⟩
      have hsame : suffixes (oid_table_at oid info).2 = suffixes info := by
        funext oid'
        by_cases hoid : oid' = oid
        · subst hoid
          simp [oid_table_at, suffixes, hlookup]
        · simp [oid_table_at, suffixes, hlookup, AList.lookup_insert_ne hoid]
      rw [lookups, hsame]
      simp [lookups, oid_table_at, hlookup]

theorem resolve_congr {info info' : Host_Info} (h : lookups info = lookups info') :
    resolve info = resolve info' := by
  have hsame : suffixes info = suffixes info' := congrArg Prod.snd h
  funext value oids
  unfold resolve
  rw [hsame]

theorem map_suffix_run (info : Host_Info) (value : CStr) (oids : List CStr) :
    ∃ info', (map_suffix value oids).run info = some ((resolve info value oids).getD [], info') ∧
      lookups info' = lookups info := by
  induction oids generalizing info value with
  | nil => exact ⟨info, rfl, rfl⟩
  | cons oid oids ih =>
      obtain ⟨htable, hsame⟩ := oid_table_at_spec info oid
      cases hlookup : (suffixes info oid).lookup value with
      | none =>
          have hrun : (map_suffix value (oid :: oids)).run info =
              some ([], (oid_table_at oid info).2) := by
            rw [← htable] at hlookup
            simp [map_suffix, hlookup]
          refine ⟨_, ?_, hsame⟩
          rw [hrun]
          simp [resolve, hlookup]
      | some suffix =>
          have hrun : (map_suffix value (oid :: oids)).run info =
              (map_suffix suffix oids).run (oid_table_at oid info).2 := by
            rw [← htable] at hlookup
            simp [map_suffix, hlookup]
          obtain ⟨info', hrest, hsame'⟩ := ih (oid_table_at oid info).2 suffix
          refine ⟨info', ?_, hsame'.trans hsame⟩
          rw [hrun, hrest, resolve_congr hsame]
          simp [resolve, hlookup]

def mapped (db : OID_mapping_sequence_db) (info : Host_Info) (c : SQL_Collection) :
    SQL_Collection :=
  { c with post_mapping_oid_suffix := left_suffix db info c }

section Loops

variable {db : OID_mapping_sequence_db}

theorem resolved_suffix_congr {info info' : Host_Info} (h : lookups info = lookups info')
    (c : SQL_Collection) : resolved_suffix db info c = resolved_suffix db info' c := by
  have hdone : info.mapping_done = info'.mapping_done := congrArg Prod.fst h
  unfold resolved_suffix
  rw [hdone, resolve_congr h]

theorem mapped_congr {info info' : Host_Info} (h : lookups info = lookups info') :
    mapped db info = mapped db info' := by
  have hdone : info.mapping_done = info'.mapping_done := congrArg Prod.fst h
  funext c
  unfold mapped left_suffix
  rw [hdone, resolved_suffix_congr h]

theorem map_collection_run {info info' : Host_Info} {c c' : SQL_Collection}
    (hdone : info.mapping_done = 1) (h : (map_collection db c).run info = some (c', info')) :
    lookups info' = lookups info ∧ mapped db info c = c' := by
  rw [map_collection] at h
  split at h
  · rename_i hid
    simp only [StateT.run_pure] at h
    cases h
    simp [mapped, left_suffix, resolved_suffix, hdone, hid]
  · rename_i hid
    simp only [StateT.run_bind, StateT.run_lift, StateT.run_pure, Option.bind_eq_bind,
      Option.pure_def] at h
    cases hseq : sequence_of db c with
    | none => simp [hseq] at h
    | some seq =>
        obtain ⟨info₁, hsuffix, hsame⟩ := map_suffix_run info c.premaping_oid_suffix seq.oid
        simp only [hseq, Option.bind_some, hsuffix] at h
        cases h
        exact ⟨hsame, by simp [mapped, left_suffix, resolved_suffix, hdone, hid, hseq]⟩

theorem map_collections_run {info info' : Host_Info} {cs cs' : List SQL_Collection}
    (hdone : info.mapping_done = 1)
    (h : (cs.mapM (map_collection db)).run info = some (cs', info')) :
    lookups info' = lookups info ∧ cs' = cs.map (mapped db info) := by
  obtain ⟨hsame, hcs⟩ := mapM_run (lookups · = lookups info) (mapped db info · = ·) rfl h
    fun c _ s c' s' hs hc => by
      have hloaded : s.mapping_done = 1 := (congrArg Prod.fst hs).trans hdone
      obtain ⟨hs', hc'⟩ := map_collection_run hloaded hc
      rw [mapped_congr hs] at hc'
      exact ⟨hs'.trans hs, hc'⟩
  rw [← List.forall₂_map_left_iff, List.forall₂_eq_eq_eq] at hcs
  exact ⟨hsame, hcs.symm⟩

/-- What the loop over the hosts does to the entry of one host. -/
def HostMapped (db : OID_mapping_sequence_db) (hosts : List Host_Info) (h h' : SQL_Host) : Prop :=
  ∃ info, hosts[h.host]? = some info ∧
    h' = { h with collection := h.collection.map (mapped db info) }

theorem map_host_run {hosts₀ hosts hosts' : List Host_Info} {h h' : SQL_Host}
    (hinv : hosts.map lookups = hosts₀.map lookups)
    (hrun : (map_host db h).run hosts = some (h', hosts')) :
    hosts'.map lookups = hosts₀.map lookups ∧ HostMapped db hosts₀ h h' := by
  simp only [map_host, StateT.run_bind, StateT.run_get, StateT.run_lift,
    Option.bind_eq_bind, Option.pure_def, Option.bind_some] at hrun
  cases hinfo : hosts[h.host]? with
  | none => simp [hinfo] at hrun
  | some info =>
      simp only [hinfo, Option.bind_some] at hrun
      have hat := congrArg (·[h.host]?) hinv
      obtain ⟨info₀, hinfo₀, hsame⟩ : ∃ info₀, hosts₀[h.host]? = some info₀ ∧
          lookups info₀ = lookups info := by
        simpa [hinfo, eq_comm] using hat
      split at hrun
      · rename_i hdone
        cases hrun
        refine ⟨hinv, info₀, hinfo₀, ?_⟩
        have hid : mapped db info = id := by
          funext c
          simp [mapped, left_suffix, hdone]
        rw [mapped_congr hsame, hid, List.map_id]
      · rename_i hdone
        simp only [StateT.run_bind, StateT.run_lift, Option.bind_eq_bind, Option.pure_def] at hrun
        cases hloop : (h.collection.mapM (map_collection db)).run info with
        | none => simp [hloop] at hrun
        | some result =>
            obtain ⟨collection, info'⟩ := result
            simp only [hloop, Option.bind_some, StateT.run_set, Option.pure_def] at hrun
            cases hrun
            obtain ⟨hsame', hcollection⟩ := map_collections_run (not_not.mp hdone) hloop
            have hset : hosts.set h.host info = hosts := by
              obtain ⟨hi, rfl⟩ := List.getElem?_eq_some_iff.mp hinfo
              exact List.set_getElem_self hi
            refine ⟨?_, info₀, hinfo₀, by rw [mapped_congr hsame, hcollection]⟩
            rw [List.map_set, hsame', ← List.map_set, hset, hinv]

theorem map_class_run {hosts₀ hosts hosts' : List Host_Info} {cls cls' : SQL_Collection_Class}
    (hinv : hosts.map lookups = hosts₀.map lookups)
    (hrun : (map_class db cls).run hosts = some (cls', hosts')) :
    hosts'.map lookups = hosts₀.map lookups ∧
      ∃ host, cls' = { cls with host } ∧ List.Forall₂ (HostMapped db hosts₀) cls.host host := by
  simp only [map_class, StateT.run_bind, Option.bind_eq_bind] at hrun
  obtain ⟨⟨host, hosts₁⟩, hloop, hlast⟩ := Option.bind_eq_some_iff.mp hrun
  cases hlast
  obtain ⟨hinv', hhost⟩ := mapM_run (·.map lookups = hosts₀.map lookups) (HostMapped db hosts₀)
    hinv hloop fun h _ s h' s' hs hh => map_host_run hs hh
  exact ⟨hinv', host, rfl, hhost⟩

theorem map_collection_suffixes_getElem? {cfg : Snapp_config}
    {classes : List SQL_Collection_Class} {hosts : List Host_Info}
    (hmap : map_collection_suffixes cfg = some (classes, hosts)) {i j k : Nat}
    {cls : SQL_Collection_Class} {h : SQL_Host} {c : SQL_Collection} {info : Host_Info}
    (hcls : cfg.collection_class[i]? = some cls) (hh : cls.host[j]? = some h)
    (hc : h.collection[k]? = some c) (hinfo : cfg.host_table.host[h.host]? = some info) :
    ∃ host h', classes[i]? = some { cls with host } ∧ host[j]? = some h' ∧
      h'.collection[k]? = some (mapped cfg.oid_mapping_sequence_db info c) := by
  obtain ⟨-, hclasses⟩ := mapM_run (·.map lookups = cfg.host_table.host.map lookups)
    (fun cls cls' => ∃ host, cls' = { cls with host } ∧
      List.Forall₂ (HostMapped cfg.oid_mapping_sequence_db cfg.host_table.host) cls.host host)
    rfl hmap fun cls _ s cls' s' hs hrun => map_class_run hs hrun
  obtain ⟨cls', hcls', host, rfl, hhost⟩ := getElem?_of_forall₂ hclasses hcls
  obtain ⟨h', hh', info', hinfo', rfl⟩ := getElem?_of_forall₂ hhost hh
  obtain rfl : info = info' := Option.some.inj (hinfo.symm.trans hinfo')
  refine ⟨host, _, hcls', hh', ?_⟩
  rw [List.getElem?_map, hc, Option.map_some]

/-! ## The mapping returns -/

def SequenceKnown (db : OID_mapping_sequence_db) (c : SQL_Collection) : Prop :=
  c.oid_mapping_sequence_db_id ≠ -1 → (sequence_of db c).isSome

def HostKnown (db : OID_mapping_sequence_db) (hosts : List Host_Info) (h : SQL_Host) : Prop :=
  ∃ info, hosts[h.host]? = some info ∧
    (info.mapping_done = 1 → ∀ c ∈ h.collection, SequenceKnown db c)

theorem map_collection_returns {c : SQL_Collection} (hknown : SequenceKnown db c)
    (info : Host_Info) : ∃ c' info', (map_collection db c).run info = some (c', info') := by
  by_cases hid : c.oid_mapping_sequence_db_id = -1
  · exact ⟨_, _, by rw [map_collection, if_pos hid, StateT.run_pure]; rfl⟩
  · obtain ⟨seq, hseq⟩ := Option.isSome_iff_exists.mp (hknown hid)
    obtain ⟨info', hsuffix, -⟩ := map_suffix_run info c.premaping_oid_suffix seq.oid
    refine ⟨{ c with post_mapping_oid_suffix :=
      (resolve info c.premaping_oid_suffix seq.oid).getD [] }, info', ?_⟩
    rw [map_collection, if_neg hid]
    simp only [StateT.run_bind, StateT.run_lift, StateT.run_pure, Option.bind_eq_bind,
      Option.pure_def, hseq, Option.bind_some, hsuffix]

theorem map_host_returns {hosts : List Host_Info} {h : SQL_Host}
    (hknown : HostKnown db hosts h) :
    ∃ h' hosts', (map_host db h).run hosts = some (h', hosts') := by
  obtain ⟨info, hinfo, hcs⟩ := hknown
  simp only [map_host, StateT.run_bind, StateT.run_get, StateT.run_lift,
    Option.bind_eq_bind, Option.pure_def, Option.bind_some, hinfo]
  split
  · exact ⟨h, hosts, rfl⟩
  · rename_i hdone
    obtain ⟨cs', info', hloop, -⟩ := mapM_run_isSome (f := map_collection db) (fun _ => True)
      (s := info) trivial fun c hc s _ => by
        obtain ⟨c', s', hrun⟩ := map_collection_returns (hcs (not_not.mp hdone) c hc) s
        exact ⟨c', s', hrun, trivial⟩
    simp only [StateT.run_bind, StateT.run_lift, Option.bind_eq_bind, Option.pure_def, hloop,
      Option.bind_some]
    exact ⟨_, _, rfl⟩

theorem hostKnown_congr {hosts hosts' : List Host_Info} {h : SQL_Host}
    (hsame : hosts'.map lookups = hosts.map lookups) (hknown : HostKnown db hosts h) :
    HostKnown db hosts' h := by
  obtain ⟨info, hinfo, hcs⟩ := hknown
  have hat := congrArg (·[h.host]?) hsame
  obtain ⟨info', hinfo', hlookups⟩ : ∃ info', hosts'[h.host]? = some info' ∧
      lookups info' = lookups info := by
    simpa [hinfo] using hat
  have hdone : info'.mapping_done = info.mapping_done := congrArg Prod.fst hlookups
  exact ⟨info', hinfo', hdone ▸ hcs⟩

theorem map_collection_suffixes_isSome {cfg : Snapp_config}
    (hknown : ∀ cls ∈ cfg.collection_class, ∀ h ∈ cls.host,
      HostKnown cfg.oid_mapping_sequence_db cfg.host_table.host h) :
    (map_collection_suffixes cfg).isSome := by
  let Inv := fun hosts : List Host_Info => hosts.map lookups = cfg.host_table.host.map lookups
  have hclass : ∀ cls ∈ cfg.collection_class, ∀ hosts, Inv hosts →
      ∃ cls' hosts', (map_class cfg.oid_mapping_sequence_db cls).run hosts = some (cls', hosts') ∧
        Inv hosts' := by
    intro cls hcls hosts hinv
    obtain ⟨host, hosts', hloop, hinv'⟩ := mapM_run_isSome Inv hinv fun h hh hosts hinv => by
      obtain ⟨h', hosts', hrun⟩ :=
        map_host_returns (hostKnown_congr hinv (hknown cls hcls h hh))
      exact ⟨h', hosts', hrun, (map_host_run hinv hrun).1⟩
    refine ⟨{ cls with host }, hosts', ?_, hinv'⟩
    simp only [map_class, StateT.run_bind, Option.bind_eq_bind, hloop, Option.bind_some]
    rfl
  obtain ⟨classes, hosts', hrun, -⟩ := mapM_run_isSome Inv rfl hclass
  rw [map_collection_suffixes, hrun]
  rfl

end Loops

/-! ## The requests -/

theorem map_oid_string (cls : SQL_Collection_Class) (c : SQL_Collection) :
    cls.oid.map (oid_string c) = oids_at cls c.post_mapping_oid_suffix := by
  apply List.map_congr_left
  intro oid _
  by_cases hempty : c.post_mapping_oid_suffix = []
  · simp [oid_string, hempty]
  · simp [oid_string, hempty]

theorem oids_at_eq_iff {cls : SQL_Collection_Class} {s t : CStr} :
    oids_at cls s = oids_at cls t ↔ cls.oid = [] ∨ s = t := by
  constructor
  · intro h
    rcases hoid : cls.oid with - | ⟨oid, rest⟩
    · exact .inl rfl
    · right
      unfold oids_at at h
      rw [hoid, List.map_cons, List.map_cons] at h
      have hfirst := (List.cons.inj h).1
      split_ifs at hfirst with hs ht ht
      · rw [hs, ht]
      · simp at hfirst
      · simp at hfirst
      · exact List.append_cancel_left hfirst
  · rintro (hoid | rfl)
    · simp [oids_at, hoid]
    · rfl

/-- A way to read OIDs that tells all texts apart. -/
def read_codes (text : CStr) : Option Oid := some (text.map Char.toNat)

theorem variables_read_codes (texts : List CStr) :
    (texts.mapM read_codes).map (· ++ [timeticks]) =
      some (texts.map (·.map Char.toNat) ++ [timeticks]) := by
  have hread : texts.mapM read_codes = some (texts.map (·.map Char.toNat)) := List.mapM_pure
  rw [hread, Option.map_some]

theorem variables_read_codes_inj {texts texts' : List CStr}
    (h : (texts.mapM read_codes).map (· ++ [timeticks]) =
      (texts'.mapM read_codes).map (· ++ [timeticks])) : texts = texts' := by
  rw [variables_read_codes, variables_read_codes, Option.some.injEq,
    List.append_left_inj] at h
  have hchar : Function.Injective Char.toNat := fun a b hab => Char.toNat_inj.mp hab
  exact List.map_injective_iff.mpr (List.map_injective_iff.mpr hchar) h

/-- The empty text in a collection stands for what was to be resolved: on a host
with tables no sequence leads to it, on another host the suffix is already right. -/
def Unambiguous (db : OID_mapping_sequence_db) (info : Host_Info) (cls : SQL_Collection_Class)
    (c : SQL_Collection) : Prop :=
  if c.oid_mapping_sequence_db_id = -1 then
    info.mapping_done = 1 ∨ cls.oid = [] ∨
      c.post_mapping_oid_suffix = c.premaping_oid_suffix
  else if info.mapping_done = 1 then resolved_suffix db info c ≠ some []
  else c.post_mapping_oid_suffix = []

theorem request_variables_of_unmapped {read_objid : CStr → Option Oid}
    {cls : SQL_Collection_Class} {c : SQL_Collection} (hid : c.oid_mapping_sequence_db_id = -1) :
    request_variables read_objid cls c =
      ((oids_at cls c.post_mapping_oid_suffix).mapM read_objid).map (· ++ [timeticks]) := by
  have hskip : c.skipped = false := by simp [SQL_Collection.skipped, hid]
  rw [request_variables, hskip, map_oid_string]
  rfl

theorem request_variables_of_mapped {read_objid : CStr → Option Oid}
    {cls : SQL_Collection_Class} {c : SQL_Collection} (hid : c.oid_mapping_sequence_db_id ≠ -1) :
    request_variables read_objid cls c =
      if c.post_mapping_oid_suffix = [] then none
      else ((oids_at cls c.post_mapping_oid_suffix).mapM read_objid).map (· ++ [timeticks]) := by
  by_cases hempty : c.post_mapping_oid_suffix = []
  · have hskip : c.skipped = true := by simp [SQL_Collection.skipped, hid, hempty]
    rw [request_variables, hskip, if_pos rfl, if_pos hempty]
  · have hskip : c.skipped = false := by simp [SQL_Collection.skipped, hempty]
    rw [request_variables, hskip, if_neg hempty, map_oid_string]
    rfl

theorem request_mapped_iff (db : OID_mapping_sequence_db) (info : Host_Info)
    (cls : SQL_Collection_Class) (c : SQL_Collection) :
    (∀ read_objid, request_variables read_objid cls (mapped db info c) =
      resolved_variables read_objid db info cls c) ↔ Unambiguous db info cls c := by
  by_cases hid : c.oid_mapping_sequence_db_id = -1
  · have hresolved : resolved_suffix db info c = some c.premaping_oid_suffix := by
      rw [resolved_suffix, if_pos hid]
    have hleft : ∀ read_objid, request_variables read_objid cls (mapped db info c) =
        ((oids_at cls (left_suffix db info c)).mapM read_objid).map (· ++ [timeticks]) :=
      fun read_objid => request_variables_of_unmapped hid
    rw [Unambiguous, if_pos hid]
    simp only [hleft, resolved_variables, hresolved, Option.bind_some]
    by_cases hdone : info.mapping_done = 1
    · have hsuffix : left_suffix db info c = c.premaping_oid_suffix := by
        rw [left_suffix, if_pos hdone, hresolved]
        rfl
      simp [hsuffix, hdone]
    · have hsuffix : left_suffix db info c = c.post_mapping_oid_suffix := by
        rw [left_suffix, if_neg hdone]
      rw [hsuffix]
      constructor
      · intro h
        exact .inr (oids_at_eq_iff.mp (variables_read_codes_inj (h read_codes)))
      · intro h read_objid
        rw [oids_at_eq_iff.mpr (h.resolve_left hdone)]
  · have hleft : ∀ read_objid, request_variables read_objid cls (mapped db info c) =
        if left_suffix db info c = [] then none
        else ((oids_at cls (left_suffix db info c)).mapM read_objid).map (· ++ [timeticks]) :=
      fun read_objid => request_variables_of_mapped hid
    rw [Unambiguous, if_neg hid]
    simp only [hleft, resolved_variables]
    by_cases hdone : info.mapping_done = 1
    · rw [if_pos hdone, left_suffix, if_pos hdone]
      cases hresolved : resolved_suffix db info c with
      | none => simp
      | some s =>
          by_cases hs : s = []
          · simp only [hs, Option.getD_some, if_pos, Option.bind_some, ne_eq, not_true_eq_false,
              iff_false]
            intro h
            have hread := h read_codes
            rw [variables_read_codes] at hread
            simp at hread
          · simp [hs]
    · have hresolved : resolved_suffix db info c = none := by
        rw [resolved_suffix, if_neg hid, if_neg hdone]
      rw [if_neg hdone, left_suffix, if_neg hdone, hresolved]
      by_cases hempty : c.post_mapping_oid_suffix = []
      · simp [hempty]
      · simp only [hempty, if_false, Option.bind_none, iff_false]
        intro h
        have hread := h read_codes
        rw [variables_read_codes] at hread
        simp at hread

/-- After the mapping every collection is in its place, and it is polled at its own
resolved OIDs or not at all if and only if the empty text is unambiguous for it. -/
theorem polls_resolved_iff {cfg : Snapp_config} {classes : List SQL_Collection_Class}
    {hosts : List Host_Info} (hmap : map_collection_suffixes cfg = some (classes, hosts))
    {i j k : Nat} {cls : SQL_Collection_Class} {h : SQL_Host} {c : SQL_Collection}
    {info : Host_Info} (hcls : cfg.collection_class[i]? = some cls) (hh : cls.host[j]? = some h)
    (hc : h.collection[k]? = some c) (hinfo : cfg.host_table.host[h.host]? = some info) :
    ∃ cls' h' c', classes[i]? = some cls' ∧ cls'.host[j]? = some h' ∧
      h'.collection[k]? = some c' ∧
      ((∀ (agent : Agent) (host : Host_Info) (clock : Clock) (n : Nat),
          (collect agent cls' host clock n c').request.map (·.vars) =
            resolved_variables agent.read_objid cfg.oid_mapping_sequence_db info cls c) ↔
        Unambiguous cfg.oid_mapping_sequence_db info cls c) := by
  obtain ⟨host, h', hcls', hh', hc'⟩ :=
    map_collection_suffixes_getElem? hmap hcls hh hc hinfo
  refine ⟨_, h', _, hcls', hh', hc', ?_⟩
  rw [← request_mapped_iff]
  simp only [collect_request]
  constructor
  · intro hall read_objid
    exact hall ⟨true, read_objid, fun _ _ => .other, fun _ => 0, fun _ => [], fun _ => .null⟩ info
      ⟨0, 0⟩ 0
  · intro hall agent _ _ _
    exact hall agent.read_objid

/-! ## One collection without a mapping sequence -/

def ifDescr : CStr := "1.3.6.1.2.1.2.2.1.2".toList

def loadedHost (mapping_done : Int32) : Host_Info :=
  ⟨1, "10.0.0.1".toList, "public".toList, mapping_done,
    (∅ : AList fun _ : CStr => OID_Value_Table).insert ifDescr ⟨ifDescr, ∅⟩⟩

def loadedCollection : SQL_Collection := ⟨"1".toList, [], -1, "port1.rrd".toList⟩

def loadedClass : SQL_Collection_Class :=
  ⟨1, 60, [], [⟨"1.3.6".toList, "octets".toList⟩], [⟨0, [loadedCollection]⟩], []⟩

def loadedConfig (mapping_done : Int32) : Snapp_config where
  host_table := ⟨[loadedHost mapping_done], ∅, by simp⟩
  oid_mapping_sequence_db := ⟨[], ∅, OID_mapping_sequence_db.empty.index_lt⟩
  collection_class := [loadedClass]

theorem polls_resolved_loaded :
    ∃ classes hosts, map_collection_suffixes (loadedConfig 1) = some (classes, hosts) ∧
      ∃ cls' h' c', classes[0]? = some cls' ∧ cls'.host[0]? = some h' ∧
        h'.collection[0]? = some c' ∧
        ((∀ (agent : Agent) (host : Host_Info) (clock : Clock) (n : Nat),
            (collect agent cls' host clock n c').request.map (·.vars) =
              resolved_variables agent.read_objid (loadedConfig 1).oid_mapping_sequence_db
                (loadedHost 1) loadedClass loadedCollection) ↔
          Unambiguous (loadedConfig 1).oid_mapping_sequence_db (loadedHost 1) loadedClass
            loadedCollection) :=
  ⟨_, _, rfl, polls_resolved_iff rfl rfl rfl rfl rfl⟩

/-- On a host whose tables were not loaded the suffix is left out of the request. -/
theorem polls_bare_prefix :
    ∃ classes hosts cls h c, map_collection_suffixes (loadedConfig 0) = some (classes, hosts) ∧
      classes[0]? = some cls ∧ cls.host[0]? = some h ∧ h.collection[0]? = some c ∧
      (∀ agent host clock n, (collect agent cls host clock n c).request.map (·.vars) =
        (["1.3.6".toList].mapM agent.read_objid).map (· ++ [timeticks])) ∧
      (∀ read_objid, resolved_variables read_objid (loadedConfig 0).oid_mapping_sequence_db
          (loadedHost 0) loadedClass loadedCollection =
        (["1.3.6.1".toList].mapM read_objid).map (· ++ [timeticks])) ∧
      ∃ agent host clock n, (collect agent cls host clock n c).request.map (·.vars) ≠
        resolved_variables agent.read_objid (loadedConfig 0).oid_mapping_sequence_db
          (loadedHost 0) loadedClass loadedCollection := by
  refine ⟨_, _, loadedClass, _, loadedCollection, rfl, rfl, rfl, rfl, ?_, ?_, ?_⟩
  · intro agent host clock n
    rw [collect_request]
    rfl
  · intro read_objid
    rfl
  · refine ⟨⟨true, read_codes, fun _ _ => .other, fun _ => 0, fun _ => [], fun _ => .null⟩,
      loadedHost 0, ⟨0, 0⟩, 0, ?_⟩
    rw [collect_request]
    decide

end SnappCollector.Config
