import SnappCollector.Collection.Proofs.Pushes
import SnappCollector.Writer.Proofs.Values

/-!
# From the answer of a device to the RRD update

For a response of printed numbers and missing instances, the text that the writer
hands to the RRD library lists those numbers after the time, in order, if the writer
converts the values that it is given.
-/

namespace SnappCollector.Collection

open CLib Writer

/-! ## A response of numbers -/

/-- A variable that prints as a tagged number, or that the device does not have. -/
inductive Reading where
  | number (tag : CStr) (n : Nat)
  | missing (text : CStr)

def Reading.toVariable : Reading → Variable
  | .number tag n => ⟨.value, tag ++ ": ".toList ++ dec n⟩
  | .missing text => ⟨.NOSUCHINSTANCE, text⟩

/-- The tag is a word that the scanner skips, and the number fits 64 bits. -/
def Reading.Printed : Reading → Prop
  | .number tag n =>
      tag ≠ [] ∧ ':' ∉ tag ∧ n < 2 ^ 64 ∧ plain (tag ++ ": ".toList ++ dec n)
  | .missing _ => True

def Reading.cleaned : Reading → CStr
  | .number _ n => dec n
  | .missing _ => "NAN".toList

def Reading.field : Reading → CStr
  | .number _ n => dec n
  | .missing _ => "U".toList

theorem snmp_values_readings {readings : List Reading} (h : ∀ r ∈ readings, r.Printed)
    {vars : List Variable} {snmp_val : List CStr} (hvars : snmp_values vars = .cleaned snmp_val) :
    snmp_values (readings.map Reading.toVariable ++ vars) =
      .cleaned (readings.map Reading.cleaned ++ snmp_val) := by
  induction readings with
  | nil => simpa using hvars
  | cons r readings ih =>
      have hrest := ih fun r' hr' => h r' (List.mem_cons_of_mem _ hr')
      have hr := h r (by simp)
      cases r with
      | number tag n =>
          obtain ⟨-, htag, -, hplain⟩ := hr
          simp only [List.map_cons, List.cons_append, Reading.toVariable, snmp_values,
            get_clean_snmpvalue_tagged n htag hplain, hrest, reduceCtorEq, or_self, if_false,
            Reading.cleaned]
      | missing text =>
          simp only [List.map_cons, List.cons_append, Reading.toVariable, snmp_values, hrest,
            reduceCtorEq, or_self, if_false, if_true, Reading.cleaned]

theorem Reading.cleaned_word {r : Reading} (h : r.Printed) :
    r.cleaned ≠ [] ∧ ':' ∉ r.cleaned ∧ r.cleaned.length ≤ 20 := by
  cases r with
  | number tag n =>
      exact ⟨dec_ne_nil n, not_mem_dec (by decide) n,
        length_dec_le (by decide) (h.2.2.1.trans (by decide))⟩
  | missing text =>
      simp only [Reading.cleaned]
      decide

theorem Reading.field_cleaned {libc : Libc} (hlibc : Mantissa64 libc) {r : Reading}
    (h : r.Printed) : Writer.field libc (libc.strtold r.cleaned) = r.field := by
  cases r with
  | number tag n =>
      have hn := h.2.2.1
      simp only [Reading.cleaned, Reading.field, Writer.field, hlibc.exact n hn,
        CFloat.isnan_ofNat, Bool.false_eq_true, if_false, CFloat.toNat_toULL_ofNat _ hn]
  | missing text =>
      simp only [Reading.cleaned, Reading.field, Writer.field, hlibc.nan, CFloat.isnan, if_true]

theorem Reading.not_mem_field (r : Reading) : ':' ∉ r.field := by
  cases r with
  | number tag n => exact not_mem_dec (by decide) n
  | missing text =>
      simp only [Reading.field]
      decide

theorem Clock.toNat_finaltime (undef : CFloat → UInt64) (clock : Clock) (tt : UInt32)
    (h : 0 ≤ clock.finaltime tt) :
    ((CFloat.fin (clock.finaltime tt)).toULL undef).toNat = (clock.finaltime tt).toNat := by
  apply CFloat.toNat_toULL_intCast undef h
  have hmytime : clock.mytime.toInt < 2 ^ 31 := clock.mytime.toInt_lt
  have htotal : (clock.totaltime tt).toNat < 2 ^ 32 := (clock.totaltime tt).toNat_lt
  unfold Clock.finaltime
  omega

def answer (readings : List Reading) (ticks : Nat) (rest : CStr) : Response :=
  .success true (readings.map Reading.toVariable ++ [⟨.value, timeticks_text ticks rest⟩])

theorem handle_answer (agent : Agent) {cls : SQL_Collection_Class} (clock : Clock) (i : Nat)
    (c : SQL_Collection) (request : Request) {readings : List Reading} {ticks : Nat}
    (rest : CStr) (hpos : 1 ≤ cls.oid.length) (hlen : readings.length = cls.oid.length)
    (hprinted : ∀ r ∈ readings, r.Printed) (hticks : ticks < 2 ^ 32 - 1) :
    handle_response agent cls clock i c request (answer readings ticks rest) =
      { request := some request
        push := some
          { in_time := .fin ((clock.update (UInt32.ofNat ticks) (agent.time i)).finaltime
              (UInt32.ofNat ticks))
            filename := cls.rrd_dir ++ c.rrd_filename
            in_rrd_template := joinWith ':' (cls.oid.map (·.ds_name))
            values := joinWith ':' (readings.map Reading.cleaned)
            stack := agent.stack i
            token := agent.token i }
        clock := clock.update (UInt32.ofNat ticks) (agent.time i)
        failed := false
        continuation := .next } := by
  have hne : cls.oid ≠ [] := List.ne_nil_of_length_pos hpos
  have hlast : snmp_values [⟨.value, timeticks_text ticks rest⟩] = .cleaned [dec ticks] := by
    simp only [snmp_values, get_clean_snmpvalue_timeticks, reduceCtorEq, or_self, if_false]
  have hvalues := snmp_values_readings hprinted hlast
  have hcount : (readings.map Reading.cleaned ++ [dec ticks]).length = cls.oid.length + 1 := by
    simp [hlen]
  have huptime : uptime cls (readings.map Reading.cleaned ++ [dec ticks]) = UInt32.ofNat ticks := by
    apply uptime_dec
    · rw [List.getElem?_append_right (by simp [hlen])]
      simp [hlen]
    · omega
  have hjoin : rrd_values cls.oid.length (readings.map Reading.cleaned ++ [dec ticks]) =
      joinWith ':' (readings.map Reading.cleaned) := by
    rw [rrd_values_eq hpos (by simp), ← hlen]
    simp
  simp only [handle_response, answer, hvalues]
  rw [store_values_of_uptime hcount (huptime ▸ ofNat_ne_neg_one hticks) hne, huptime, hjoin,
    rrd_template_eq hne]

/-- `mytime + totaltime` for the collection with number `i`, from the clock with which the loop
comes to it. -/
def time_at (agent : Agent) (clock : Clock) (outcomes : List Outcome) (i ticks : Nat) : Int :=
  ((clock_after clock (outcomes.take i)).update (UInt32.ofNat ticks) (agent.time i)).finaltime
    (UInt32.ofNat ticks)

/-- The conversion starts at the values, or at a text that is formatted in the same way. -/
inductive Restores (libc : Libc) (readings : List Reading) : CharPtr → Prop where
  | null : Restores libc readings .null
  | text (str : CStr)
      (hfields : (tokens ':' str).map (fun v => Writer.field libc (libc.strtold v)) =
        readings.map Reading.field) : Restores libc readings (.text str)

/-- The worker prints the time as it is unless it lies before 1970. -/
theorem dec_finaltime_iff (undef : CFloat → UInt64) (clock : Clock) (tt : UInt32) :
    dec ((CFloat.fin (clock.finaltime tt)).toULL undef).toNat = dec_int (clock.finaltime tt) ↔
      0 ≤ clock.finaltime tt := by
  constructor
  · intro hsame
    by_contra hneg
    rw [dec_int, if_pos (not_le.mp hneg)] at hsame
    exact not_mem_dec (c := '-') (by decide) _ (hsame ▸ List.mem_cons_self ..)
  · intro hnonneg
    rw [Clock.toNat_finaltime undef clock tt hnonneg, dec_int, if_neg (not_lt.mpr hnonneg)]
    congr 1
    omega

section

variable {libc : Libc} {readings : List Reading} {call : PushCall}

theorem fields_local_values (hlibc : Mantissa64 libc) (hmax : readings.length < MAX_DS_PER_FILE)
    (hprinted : ∀ r ∈ readings, r.Printed)
    (hvalues : call.values = joinWith ':' (readings.map Reading.cleaned)) :
    (tokens ':' call.local_values).map (fun v => Writer.field libc (libc.strtold v)) =
      readings.map Reading.field := by
  have hwords : ∀ v ∈ readings.map Reading.cleaned, v ≠ [] ∧ ':' ∉ v ∧ v.length ≤ 20 := by
    intro v hv
    obtain ⟨r, hr, rfl⟩ := List.mem_map.mp hv
    exact Reading.cleaned_word (hprinted r hr)
  have htokens : tokens ':' call.local_values = readings.map Reading.cleaned := by
    rw [call.local_values_of_short hvalues (by rwa [List.length_map]) fun v hv => (hwords v hv).2.2,
      hvalues]
    exact tokens_joinWith (fun v hv => (hwords v hv).1) fun v hv => (hwords v hv).2.1
  rw [htokens, List.map_map]
  exact List.map_congr_left fun r hr => Reading.field_cleaned hlibc (hprinted r hr)

theorem fields_converted_iff
    (hlocal : (tokens ':' call.local_values).map (fun v => Writer.field libc (libc.strtold v)) =
      readings.map Reading.field) :
    (∃ str, call.converted = some str ∧
        (tokens ':' str).map (fun v => Writer.field libc (libc.strtold v)) =
          readings.map Reading.field) ↔
      Restores libc readings call.token := by
  rw [PushCall.converted]
  generalize call.token = token
  constructor
  · rintro ⟨str, hread, hfields⟩
    cases token with
    | null => exact .null
    | text str' =>
        cases hread
        exact .text _ hfields
    | wild => cases hread
  · intro hrestores
    cases hrestores with
    | null => exact ⟨_, rfl, hlocal⟩
    | text str hfields => exact ⟨str, rfl, hfields⟩

theorem update_eq_fields_iff {time : CStr} (htime : ':' ∉ time) (z : Int) (words : List CStr) :
    joinWith ':' (dec_int z :: readings.map Reading.field) =
        joinWith ':' (time :: words.map fun v => Writer.field libc (libc.strtold v)) ↔
      time = dec_int z ∧
        (words.map fun v => Writer.field libc (libc.strtold v)) = readings.map Reading.field := by
  have hfields : ∀ word ∈ dec_int z :: readings.map Reading.field, ':' ∉ word := by
    intro word hword
    rcases List.mem_cons.mp hword with rfl | hfield
    · exact not_mem_dec_int (by decide) (by decide) _
    · obtain ⟨r, -, rfl⟩ := List.mem_map.mp hfield
      exact r.not_mem_field
  rw [joinWith_inj (List.cons_ne_nil _ _) (List.cons_ne_nil _ _) hfields
    (not_mem_update libc htime words), List.cons.injEq]
  exact and_congr eq_comm eq_comm

/-- A datum of the readings: its update lists them after the time exactly if the time can be
printed and the conversion starts at the right text. -/
theorem update_text_iff (hlibc : Mantissa64 libc) (hpos : 1 ≤ readings.length)
    (hmax : readings.length < MAX_DS_PER_FILE) (hprinted : ∀ r ∈ readings, r.Printed)
    (w : RRD_Writer) {clock : Clock} {tt : UInt32} (htime : call.in_time = .fin (clock.finaltime tt))
    (hvalues : call.values = joinWith ':' (readings.map Reading.cleaned)) :
    w.update_text libc call =
        some (joinWith ':' (dec_int (clock.finaltime tt) :: readings.map Reading.field)) ↔
      0 ≤ clock.finaltime tt ∧ Restores libc readings call.token := by
  rw [← fields_converted_iff (fields_local_values hlibc hmax hprinted hvalues),
    ← dec_finaltime_iff libc.ullUndefined, update_text_eq_some_iff, htime]
  have hdec : ∀ n : Nat, ':' ∉ dec n := not_mem_dec (by decide)
  constructor
  · rintro ⟨str, hread, -, -, htext⟩
    obtain ⟨hsame, hfields⟩ := (update_eq_fields_iff (hdec _) _ _).mp htext
    exact ⟨hsame, str, hread, hfields⟩
  · rintro ⟨hsame, str, hread, hfields⟩
    have hcount : (tokens ':' str).length = readings.length := by
      simpa using congrArg List.length hfields
    exact ⟨str, hread, by omega, by omega, (update_eq_fields_iff (hdec _) _ _).mpr ⟨hsame, hfields⟩⟩

end

/-- A collection that `get_collect` reaches and does not skip, and an answer of tagged
numbers and missing instances with an uptime: the datum that is pushed carries the
names of the data sources in order and the time of the poll, and its update lists the
numbers in order after that time, with `U` for the missing ones, and nothing else, exactly
if the time does not lie before 1970 and the conversion starts at the right text. -/
theorem update_of_answer_iff {libc : Libc} (hlibc : Mantissa64 libc) {agent : Agent}
    {host : Host_Info} {cls : SQL_Collection_Class} {sql_host : SQL_Host} {clock : Clock}
    (hpos : 1 ≤ cls.oid.length) (hmax : cls.oid.length < MAX_DS_PER_FILE) {i : Nat}
    {outcome : Outcome} (hreached : (get_collect agent host cls sql_host clock).1[i]? = some outcome)
    {request : Request} (hrequest : outcome.request = some request) {readings : List Reading}
    {ticks : Nat} {rest : CStr} (hanswer : agent.response i request = answer readings ticks rest)
    (hlen : readings.length = cls.oid.length) (hprinted : ∀ r ∈ readings, r.Printed)
    (hticks : ticks < 2 ^ 32 - 1) {w : RRD_Writer} (hw : w.WellFormed) {time : Int}
    (htime : time = time_at agent clock (get_collect agent host cls sql_host clock).1 i ticks) :
    ∃ call, outcome.push = some call ∧ call.in_time = .fin time ∧
      call.in_rrd_template = joinWith ':' (cls.oid.map (·.ds_name)) ∧
      (∀ datum, (w.new_datum libc call).2 = some datum →
        (w.new_datum libc call).1.Names datum call) ∧
      (w.update_text libc call =
          some (joinWith ':' (dec_int time :: readings.map Reading.field)) ↔
        0 ≤ time ∧ Restores libc readings (agent.token i)) := by
  rw [get_collect_outcomes] at hreached htime
  split_ifs at hreached htime
  · obtain ⟨c, -, houtcome⟩ := collect_all_getElem? hreached
    rw [Nat.zero_add] at houtcome
    rw [houtcome] at hrequest
    have hhandled := collect_of_request hrequest
    rw [hanswer, handle_answer agent _ i c request rest hpos hlen hprinted hticks] at hhandled
    rw [houtcome, hhandled, htime]
    refine ⟨_, rfl, rfl, rfl, (w.new_datum_spec libc hw _).2.2, ?_⟩
    exact update_text_iff hlibc (by omega) (by omega) hprinted w rfl rfl
  · simp at hreached

/-! ## A class with three OIDs -/

def sampleInfo : Host_Info := ⟨1, "10.0.0.1".toList, "public".toList, 0, ∅⟩

def sampleCollection : SQL_Collection := ⟨[], "1".toList, -1, "port1.rrd".toList⟩

def sampleHost : SQL_Host := ⟨0, [sampleCollection]⟩

def mixedClass : SQL_Collection_Class :=
  ⟨1, 60, [], [⟨"1.3".toList, "octets".toList⟩, ⟨"1.4".toList, "errors".toList⟩,
    ⟨"1.5".toList, "speed".toList⟩], [sampleHost], []⟩

/-- The largest counter, an instance that the device does not have, and a small number. -/
def mixedReadings : List Reading :=
  [.number "Counter64".toList (2 ^ 64 - 1), .missing [], .number "Gauge32".toList 7]

/-- A device that answers with them, asked by a process whose stack holds the pointer. -/
def mixedAgent (token : CharPtr) : Agent where
  sess_open := true
  read_objid _ := some [1, 3, 1]
  response _ _ := answer mixedReadings 500 []
  time _ := 1000
  stack _ := []
  token _ := token

def mixedCall (token : CharPtr) : PushCall where
  in_time := .fin 1000
  filename := "port1.rrd".toList
  in_rrd_template := "octets:errors:speed".toList
  values := "18446744073709551615:NAN:7".toList
  stack := []
  token := token

def mixedRequest : Request :=
  ⟨sampleInfo.ip_address, sampleInfo.community, [[1, 3, 1], [1, 3, 1], [1, 3, 1], timeticks]⟩

theorem printed_mixedReadings : ∀ r ∈ mixedReadings, r.Printed := by
  have hlargest : Reading.Printed (.number "Counter64".toList (2 ^ 64 - 1)) := by
    refine ⟨by decide, by decide, by decide, ?_⟩
    unfold plain
    decide +kernel
  have hsmall : Reading.Printed (.number "Gauge32".toList 7) := by
    refine ⟨by decide, by decide, by decide, ?_⟩
    unfold plain
    decide +kernel
  simp only [mixedReadings, List.forall_mem_cons]
  exact ⟨hlargest, trivial, hsmall, List.forall_mem_nil _⟩

theorem mixed_pushes (token : CharPtr) :
    ∃ outcome,
      (get_collect (mixedAgent token) sampleInfo mixedClass sampleHost ⟨0, 0⟩).1[0]? =
          some outcome ∧
        outcome.request = some mixedRequest ∧ outcome.push = some (mixedCall token) := by
  have hrequest : request_variables (mixedAgent token).read_objid mixedClass sampleCollection =
      some mixedRequest.vars := rfl
  have hcollect : collect (mixedAgent token) mixedClass sampleInfo ⟨0, 0⟩ 0 sampleCollection = _ :=
    (collect_of_variables hrequest).trans
      (handle_answer (mixedAgent token) ⟨0, 0⟩ 0 sampleCollection mixedRequest [] (by decide) rfl
        printed_mixedReadings (by decide))
  have hclock : (Clock.update ⟨0, 0⟩ (UInt32.ofNat 500) 1000).finaltime (UInt32.ofNat 500) = 1000 := by
    decide
  have hpushed : mixedCall token =
      { in_time := .fin ((Clock.update ⟨0, 0⟩ (UInt32.ofNat 500) 1000).finaltime (UInt32.ofNat 500))
        filename := mixedClass.rrd_dir ++ sampleCollection.rrd_filename
        in_rrd_template := joinWith ':' (mixedClass.oid.map (·.ds_name))
        values := joinWith ':' (mixedReadings.map Reading.cleaned)
        stack := []
        token := token } := by
    rw [hclock]
    congr
  have hone : (get_collect (mixedAgent token) sampleInfo mixedClass sampleHost ⟨0, 0⟩).1 =
      [collect (mixedAgent token) mixedClass sampleInfo ⟨0, 0⟩ 0 sampleCollection] :=
    collect_all_singleton ⟨0, 0⟩ 0 sampleCollection
  rw [hone, hcollect, hpushed]
  exact ⟨_, rfl, rfl, rfl⟩

/-- With a pointer of NULL every value reaches the update. -/
theorem update_of_counters :
    ∃ outcome,
      (get_collect (mixedAgent .null) sampleInfo mixedClass sampleHost ⟨0, 0⟩).1[0]? =
          some outcome ∧
        outcome.push = some (mixedCall .null) ∧
        RRD_Writer.empty.update_text decimalLibc (mixedCall .null) =
          some "1000:18446744073709551615:U:7".toList := by
  obtain ⟨outcome, hreached, hrequest, hpush⟩ := mixed_pushes .null
  have htime : (1000 : Int) = time_at (mixedAgent .null) ⟨0, 0⟩
      (get_collect (mixedAgent .null) sampleInfo mixedClass sampleHost ⟨0, 0⟩).1 0 500 := by
    decide
  obtain ⟨call, hcall, -, -, -, htext⟩ :=
    update_of_answer_iff mantissa64_decimalLibc (by decide) (by decide) hreached hrequest rfl rfl
      printed_mixedReadings (by decide) RRD_Writer.wellFormed_empty htime
  rw [hpush] at hcall
  cases hcall
  refine ⟨outcome, hreached, hpush, ?_⟩
  rw [htext.mpr ⟨by decide, .null⟩]
  decide +kernel

/-- With a pointer to a text of one zero the three values are lost. -/
theorem update_from_memory :
    ∃ outcome,
      (get_collect (mixedAgent (.text "0".toList)) sampleInfo mixedClass sampleHost
          ⟨0, 0⟩).1[0]? = some outcome ∧
        outcome.push = some (mixedCall (.text "0".toList)) ∧
        RRD_Writer.empty.update_text decimalLibc (mixedCall (.text "0".toList)) =
          some "1000:0".toList ∧
        "1000:0".toList ≠ joinWith ':' (dec_int 1000 :: mixedReadings.map Reading.field) := by
  obtain ⟨outcome, hreached, -, hpush⟩ := mixed_pushes (.text "0".toList)
  refine ⟨outcome, hreached, hpush, ?_, by decide +kernel⟩
  rw [update_text_eq_some_iff]
  refine ⟨"0".toList, rfl, by decide, by decide, ?_⟩
  decide +kernel

/-! ## A class with one OID -/

def sampleClass : SQL_Collection_Class :=
  ⟨1, 60, [], [⟨"1.3".toList, "octets".toList⟩], [sampleHost], []⟩

def deviceAgent (text : CStr) (ticks : Nat) (now : Int) : Agent where
  sess_open := true
  read_objid _ := some [1, 3, 1]
  response _ _ := .success true [⟨.value, text⟩, ⟨.value, timeticks_text ticks []⟩]
  time _ := now
  stack _ := []
  token _ := .null

def deviceRequest : Request :=
  ⟨sampleInfo.ip_address, sampleInfo.community, [[1, 3, 1], timeticks]⟩

theorem snmp_values_cleaned {text value : CStr} {vars : List Variable} {values : List CStr}
    (hclean : get_clean_snmpvalue text = some value) (hvars : snmp_values vars = .cleaned values) :
    snmp_values (⟨.value, text⟩ :: vars) = .cleaned (value :: values) := by
  simp only [snmp_values, hclean, hvars, reduceCtorEq, or_self, if_false]

theorem snmp_values_pair {text text' value value' : CStr}
    (h : get_clean_snmpvalue text = some value) (h' : get_clean_snmpvalue text' = some value') :
    snmp_values [⟨.value, text⟩, ⟨.value, text'⟩] = .cleaned [value, value'] :=
  snmp_values_cleaned h (snmp_values_cleaned h' rfl)

theorem snmp_values_device {text value : CStr} (hclean : get_clean_snmpvalue text = some value)
    (ticks : Nat) : snmp_values [⟨.value, text⟩, ⟨.value, timeticks_text ticks []⟩] =
      .cleaned [value, dec ticks] :=
  snmp_values_pair hclean (get_clean_snmpvalue_timeticks ticks [])

theorem collect_device {text value : CStr} (hclean : get_clean_snmpvalue text = some value)
    {ticks : Nat} (hticks : ticks < 2 ^ 32 - 1) (now : Int) (clock : Clock) :
    collect (deviceAgent text ticks now) sampleClass sampleInfo clock 0 sampleCollection =
      { request := some deviceRequest
        push := some
          { in_time := .fin ((clock.update (UInt32.ofNat ticks) now).finaltime (UInt32.ofNat ticks))
            filename := "port1.rrd".toList
            in_rrd_template := "octets".toList
            values := value
            stack := []
            token := .null }
        clock := clock.update (UInt32.ofNat ticks) now
        failed := false
        continuation := .next } := by
  have huptime : uptime sampleClass [value, dec ticks] = UInt32.ofNat ticks :=
    uptime_dec rfl (by omega)
  have hvalid : uptime sampleClass [value, dec ticks] ≠ -1 := huptime ▸ ofNat_ne_neg_one hticks
  have hcollect : collect (deviceAgent text ticks now) sampleClass sampleInfo clock 0
      sampleCollection = _ := collect_of_cleaned rfl rfl (snmp_values_device hclean ticks)
  rw [store_values_of_uptime rfl hvalid (by decide), huptime] at hcollect
  exact hcollect

theorem get_collect_device (text : CStr) (ticks : Nat) (now : Int) (clock : Clock) :
    (get_collect (deviceAgent text ticks now) sampleInfo sampleClass sampleHost clock).1 =
      [collect (deviceAgent text ticks now) sampleClass sampleInfo clock 0 sampleCollection] :=
  collect_all_singleton clock 0 sampleCollection

end SnappCollector.Collection
