import SnappCollector.Collection.Proofs.RoundTrip
import SnappCollector.Writer.Proofs.Values

/-!
# Values and the names of their data sources

The values of an update are separated by colons, and a value is passed on as it is
printed if it begins with a digit.  One with a colon in it makes two values.
-/

namespace SnappCollector.Collection

open CLib Writer

/-! ## What a text shows -/

/-- net-snmp prints the type of a value, a colon and a blank in front of it. -/
def Printed (text : CStr) : Prop := ∃ tag rest, text = tag ++ ": ".toList ++ rest

/-- The value that a text shows.  A text that says that there is none shows nothing. -/
inductive Shows : CStr → CStr → Prop where
  | behind {tag value : CStr} {c : Char} (htag : ':' ∉ tag)
      (hplain : plain (tag ++ ':' :: c :: value)) : Shows (tag ++ ':' :: c :: value) value
  | parenthesised {text front rest inside behind : CStr} (hticks : "Timeticks".toList <:+: text)
      (hopen : Scanned '(' text front rest) (hclose : Scanned ')' rest inside behind)
      (hnull : ¬"null".toList <:+: inside) : Shows text inside

theorem Shows.the_value_eq {text value : CStr} (h : Shows text value) :
    the_value text = some value := by
  cases h with
  | behind htag hplain => exact the_value_behind htag hplain
  | parenthesised hticks hopen hclose hnull =>
      rw [the_value, if_pos (strstr_ne_none_iff.mpr hticks)]
      simp only [hopen.strtok_r_eq, Option.bind_some, hclose.strtok_r_eq, strstr_eq_none hnull,
        ne_eq, not_true_eq_false, if_false]

theorem Printed.split {text : CStr} (h : Printed text) :
    ∃ tag c value, ':' ∉ tag ∧ text = tag ++ ':' :: c :: value := by
  obtain ⟨tag₀, rest₀, htext⟩ := h
  have hcolon : ':' ∈ text := by simp [htext]
  obtain ⟨tag, rest, hsplit, htag⟩ := List.eq_append_cons_of_mem hcolon
  cases rest with
  | cons c value => exact ⟨tag, c, value, htag, hsplit⟩
  | nil =>
      have hlast : tag = (tag₀ ++ ": ".toList ++ rest₀).dropLast := by
        rw [← htext, hsplit, List.dropLast_concat]
      have hfront : tag₀ ++ ": ".toList ++ rest₀ = (tag₀ ++ [':']) ++ ' ' :: rest₀ := by simp
      rw [hfront, List.dropLast_append_of_ne_nil (by simp)] at hlast
      exact absurd (by simp [hlast]) htag

/-- A printed text shows its value, or stands for one of two constants. -/
theorem Printed.the_value_cases {text : CStr} (h : Printed text) :
    the_value text = some "-1".toList ∨ the_value text = some "0".toList ∨
      ∃ value, Shows text value := by
  by_cases hticks : "Timeticks".toList <:+: text
  · have hword := strstr_ne_none_iff.mpr hticks
    cases hopen : strtok_r '(' text with
    | none =>
        left
        rw [the_value, if_pos hword]
        simp only [hopen, Option.bind_none]
    | some opened =>
        obtain ⟨front, rest⟩ := opened
        cases hclose : strtok_r ')' rest with
        | none =>
            left
            rw [the_value, if_pos hword]
            simp only [hopen, hclose, Option.bind_some]
        | some found =>
            obtain ⟨inside, behind⟩ := found
            by_cases hnull : "null".toList <:+: inside
            · left
              rw [the_value, if_pos hword]
              simp only [hopen, hclose, Option.bind_some, strstr_ne_none_iff.mpr hnull, ne_eq,
                not_false_eq_true, if_true]
            · exact .inr (.inr ⟨inside, .parenthesised hticks (strtok_r_eq_some_iff.mp hopen)
                (strtok_r_eq_some_iff.mp hclose) hnull⟩)
  · by_cases hinstance : "No Such Instance".toList <:+: text
    · right; left
      rw [the_value, if_neg (not_not.mpr (strstr_eq_none hticks)),
        if_pos (strstr_ne_none_iff.mpr hinstance)]
    · by_cases hobject : "No Such Object".toList <:+: text
      · right; left
        rw [the_value, if_neg (not_not.mpr (strstr_eq_none hticks)),
          if_neg (not_not.mpr (strstr_eq_none hinstance)), if_pos (strstr_ne_none_iff.mpr hobject)]
      · obtain ⟨tag, c, value, htag, rfl⟩ := h.split
        exact .inr (.inr ⟨value, .behind htag ⟨hticks, hinstance, hobject⟩⟩)

/-! ## What a cleaned value looks like -/

/-- The text shows a number, or what the cleaning takes for one, with a colon in it. -/
def ShowsColon (text : CStr) : Prop :=
  ∃ value, Shows text value ∧ (value.headD '\x00').isDigit = true ∧ ':' ∈ value

theorem not_mem_second_chance (value : CStr) : ':' ∉ second_chance value := by
  unfold second_chance
  split_ifs <;> decide

theorem second_chance_ne_nil (value : CStr) : second_chance value ≠ [] := by
  unfold second_chance
  split_ifs <;> decide

theorem get_clean_snmpvalue_ne_nil {text value : CStr}
    (h : get_clean_snmpvalue text = some value) : value ≠ [] := by
  obtain ⟨shown, -, rfl⟩ := Option.map_eq_some_iff.mp h
  split_ifs with hdigit
  · rintro rfl
    exact absurd hdigit (by decide)
  · exact second_chance_ne_nil shown

theorem colon_mem_clean_iff {text value : CStr} (hprinted : Printed text)
    (h : get_clean_snmpvalue text = some value) : ':' ∈ value ↔ ShowsColon text := by
  obtain ⟨shown, hshown, rfl⟩ := Option.map_eq_some_iff.mp h
  have hvalue : ∀ {v}, Shows text v → v = shown := by
    intro v hv
    rw [hv.the_value_eq] at hshown
    exact Option.some.inj hshown
  constructor
  · intro hmem
    split_ifs at hmem with hdigit
    · rcases hprinted.the_value_cases with hminus | hzero | ⟨v, hv⟩
      · rw [hshown, Option.some.injEq] at hminus
        exact absurd hmem (by rw [hminus]; decide)
      · rw [hshown, Option.some.injEq] at hzero
        exact absurd hmem (by rw [hzero]; decide)
      · obtain rfl := hvalue hv
        exact ⟨v, hv, hdigit, hmem⟩
    · exact absurd hmem (not_mem_second_chance shown)
  · rintro ⟨v, hv, hdigit, hmem⟩
    obtain rfl := hvalue hv
    rwa [if_pos hdigit]

def Variable.splits (v : Variable) : Prop := v.type = .value ∧ ShowsColon v.text

theorem Cleans.ne_nil {v : Variable} {value : CStr} (h : Cleans v value) : value ≠ [] := by
  cases h with
  | missing text => decide
  | value hclean => exact get_clean_snmpvalue_ne_nil hclean

theorem Cleans.colon_mem_iff {v : Variable} {value : CStr} (h : Cleans v value)
    (hprinted : Printed v.text) : ':' ∈ value ↔ v.splits := by
  cases h with
  | missing text =>
      refine iff_of_false (by decide) fun hsplits => ?_
      cases hsplits.1
  | value hclean =>
      rw [colon_mem_clean_iff hprinted hclean]
      exact (and_iff_right rfl).symm

/-! ## The values of a call and its names -/

/-- The conversion finds the cleaned values of the OIDs, and a name for each of them. -/
structure Aligned (libc : Libc) (cls : SQL_Collection_Class) (snmp_val : List CStr)
    (call : PushCall) (str : CStr) : Prop where
  read : call.converted = some str
  tokens_eq : tokens ':' str = snmp_val.take cls.oid.length
  stored : string_to_long_doubles libc call.token call.local_values =
    some ((cls.oid.length : Int), (snmp_val.take cls.oid.length).map libc.strtold)
  names : tokens ':' call.in_rrd_template = cls.oid.map (·.ds_name)

/-- No value of an OID makes two, and the text that is converted has the tokens of the values. -/
structure Separable (cls : SQL_Collection_Class) (vars : List Variable) (call : PushCall)
    (str : CStr) : Prop where
  read : call.converted = some str
  whole : ∀ v ∈ vars.take cls.oid.length, ¬v.splits
  kept : tokens ':' str = tokens ':' call.values

theorem words_iff_whole {vars : List Variable} {values : List CStr}
    (hcleans : List.Forall₂ Cleans vars values) (hprinted : ∀ v ∈ vars, Printed v.text) :
    (∀ w ∈ values, w ≠ [] ∧ ':' ∉ w) ↔ ∀ v ∈ vars, ¬v.splits := by
  induction hcleans with
  | nil => simp
  | @cons v value vars values hclean _ ih =>
      have hrest := ih fun v' hv' => hprinted v' (List.mem_cons_of_mem _ hv')
      have hv := hclean.colon_mem_iff (hprinted v (List.mem_cons_self ..))
      simp only [List.forall_mem_cons, hrest, hv]
      exact and_congr_left fun _ => and_iff_right hclean.ne_nil

section

variable {agent : Agent} {host : Host_Info} {cls : SQL_Collection_Class} {sql_host : SQL_Host}
  {clock : Clock} {i : Nat} {outcome : Outcome} {request : Request} {vars : List Variable}
  {snmp_val : List CStr} {call : PushCall}

theorem texts_of_push (hpos : 1 ≤ cls.oid.length)
    (hreached : (get_collect agent host cls sql_host clock).1[i]? = some outcome)
    (hrequest : outcome.request = some request)
    (hanswer : agent.response i request = .success true vars)
    (hvalues : snmp_values vars = .cleaned snmp_val) (hpush : outcome.push = some call) :
    call.values = joinWith ':' (snmp_val.take cls.oid.length) ∧
      call.in_rrd_template = joinWith ':' (cls.oid.map (·.ds_name)) := by
  obtain ⟨clock', c, hcollected⟩ := collected_of_get_collect hreached
  cases hcollected with
  | unchanged hnone => simp [hnone] at hpush
  | no_oid hoid hnone => simp [hnone] at hpush
  | pushed request' vars' snmp_val' hrequest' hresponse hvalues' hlength _ hoid _ hpush' =>
      rw [hrequest] at hrequest'
      cases hrequest'
      rw [hanswer] at hresponse
      cases hresponse
      rw [hvalues] at hvalues'
      cases hvalues'
      rw [hpush] at hpush'
      cases hpush'
      have hne : snmp_val ≠ [] := List.ne_nil_of_length_pos (by omega)
      exact ⟨rrd_values_eq hpos hne, rrd_template_eq hoid⟩

/-- The values that get_collect pushes are told apart again, each under the name of its data
source, exactly if none of them makes two and the conversion starts at a text that keeps them. -/
theorem aligned_iff_separable (libc : Libc) (hpos : 1 ≤ cls.oid.length)
    (hmax : cls.oid.length < MAX_DS_PER_FILE)
    (hnames : ∀ oid ∈ cls.oid, oid.ds_name ≠ [] ∧ ':' ∉ oid.ds_name)
    (hreached : (get_collect agent host cls sql_host clock).1[i]? = some outcome)
    (hrequest : outcome.request = some request)
    (hanswer : agent.response i request = .success true vars)
    (hlength : vars.length = cls.oid.length + 1) (hprinted : ∀ v ∈ vars, Printed v.text)
    (hvalues : snmp_values vars = .cleaned snmp_val) (hpush : outcome.push = some call) :
    (∃ str, Aligned libc cls snmp_val call str) ↔ ∃ str, Separable cls vars call str := by
  obtain ⟨htext, htemplate⟩ := texts_of_push hpos hreached hrequest hanswer hvalues hpush
  have hcleans := cleans_of_snmp_values hvalues
  have hfirst : List.Forall₂ Cleans (vars.take cls.oid.length) (snmp_val.take cls.oid.length) :=
    List.forall₂_take _ hcleans
  have hwords := words_iff_whole hfirst fun v hv => hprinted v (List.mem_of_mem_take hv)
  have hcount : (snmp_val.take cls.oid.length).length = cls.oid.length := by
    rw [List.length_take, ← hcleans.length_eq]
    omega
  have hjoined : tokens ':' call.values = snmp_val.take cls.oid.length ↔
      ∀ v ∈ vars.take cls.oid.length, ¬v.splits := by
    rw [htext, tokens_joinWith_iff, hwords]
  constructor
  · rintro ⟨str, haligned⟩
    have hwhole : ∀ v ∈ vars.take cls.oid.length, ¬v.splits := by
      apply hwords.mp
      intro w hw
      rw [← haligned.tokens_eq] at hw
      exact word_of_mem_tokens hw
    exact ⟨str, haligned.read, hwhole, by rw [haligned.tokens_eq, hjoined.mpr hwhole]⟩
  · rintro ⟨str, hseparable⟩
    have htokens : tokens ':' str = snmp_val.take cls.oid.length := by
      rw [hseparable.kept, hjoined.mpr hseparable.whole]
    refine ⟨str, hseparable.read, htokens, ?_, ?_⟩
    · rw [string_to_long_doubles_of_lt libc hseparable.read (by rwa [htokens, hcount]), htokens,
        hcount]
    · rw [htemplate, tokens_joinWith_iff]
      intro w hw
      obtain ⟨oid, hoid, rfl⟩ := List.mem_map.mp hw
      exact hnames oid hoid

end

/-! ## A number, a text that begins with one, and an unusable value -/

def describedTexts : List CStr :=
  ["Counter32: 5".toList, "STRING: 42 up".toList, "INTEGER: dormant(5)".toList]

def describedVariables : List Variable :=
  describedTexts.map (⟨.value, ·⟩) ++ [⟨.value, timeticks_text 500 []⟩]

def describedValues : List CStr := ["5".toList, "42 up".toList, "U".toList, dec 500]

def describedAgent : Agent where
  sess_open := true
  read_objid _ := some [1, 3, 1]
  response _ _ := .success true describedVariables
  time _ := 1000
  stack _ := []
  token _ := .null

theorem snmp_values_described : snmp_values describedVariables = .cleaned describedValues := by
  have hnumber : get_clean_snmpvalue "Counter32: 5".toList = some "5".toList := by decide +kernel
  have htext : get_clean_snmpvalue "STRING: 42 up".toList = some "42 up".toList := by decide +kernel
  have hunusable : get_clean_snmpvalue "INTEGER: dormant(5)".toList = some "U".toList := by
    decide +kernel
  exact snmp_values_cleaned hnumber (snmp_values_cleaned htext
    (snmp_values_cleaned hunusable
      (snmp_values_cleaned (get_clean_snmpvalue_timeticks 500 []) rfl)))

theorem described_pushes :
    ∃ outcome call,
      (get_collect describedAgent sampleInfo mixedClass sampleHost ⟨0, 0⟩).1[0]? = some outcome ∧
        outcome.request = some mixedRequest ∧ outcome.push = some call ∧
        call.values = "5:42 up:U".toList ∧ call.token = .null := by
  have huptime : uptime mixedClass describedValues = UInt32.ofNat 500 :=
    uptime_dec rfl (by decide)
  have hvalid : uptime mixedClass describedValues ≠ -1 := huptime ▸ ofNat_ne_neg_one (by decide)
  have hcollect : collect describedAgent mixedClass sampleInfo ⟨0, 0⟩ 0 sampleCollection = _ :=
    collect_of_cleaned (by rfl : _ = some mixedRequest.vars) rfl snmp_values_described
  rw [store_values_of_uptime rfl hvalid (by decide)] at hcollect
  have hone : (get_collect describedAgent sampleInfo mixedClass sampleHost ⟨0, 0⟩).1 =
      [collect describedAgent mixedClass sampleInfo ⟨0, 0⟩ 0 sampleCollection] :=
    collect_all_singleton ⟨0, 0⟩ 0 sampleCollection
  rw [hone, hcollect]
  exact ⟨_, _, rfl, rfl, rfl, by decide, rfl⟩

theorem aligned_described :
    ∃ outcome call str,
      (get_collect describedAgent sampleInfo mixedClass sampleHost ⟨0, 0⟩).1[0]? = some outcome ∧
        outcome.push = some call ∧ Aligned decimalLibc mixedClass describedValues call str := by
  obtain ⟨outcome, call, hreached, hrequest, hpush, htext, htoken⟩ := described_pushes
  have hprinted : ∀ v ∈ describedVariables, Printed v.text := by
    simp only [describedVariables, describedTexts, List.map_cons, List.map_nil, List.cons_append,
      List.nil_append, List.forall_mem_cons]
    exact ⟨⟨"Counter32".toList, "5".toList, rfl⟩, ⟨"STRING".toList, "42 up".toList, rfl⟩,
      ⟨"INTEGER".toList, "dormant(5)".toList, rfl⟩, ⟨"Timeticks".toList, _, rfl⟩,
      List.forall_mem_nil _⟩
  have hfirst := List.forall₂_take 3 (cleans_of_snmp_values snmp_values_described)
  have hwhole : ∀ v ∈ describedVariables.take 3, ¬v.splits :=
    (words_iff_whole hfirst fun v hv => hprinted v (List.mem_of_mem_take hv)).mp (by decide)
  have hlocal : call.local_values = call.values := call.local_values_of_lt (by rw [htext]; decide)
  have hread : call.converted = some call.values := by
    rw [PushCall.converted, htoken, hlocal, strtok_start]
  obtain ⟨str, haligned⟩ :=
    (aligned_iff_separable decimalLibc (by decide) (by decide) (by decide) hreached hrequest
      rfl rfl hprinted snmp_values_described hpush).mpr ⟨_, hread, hwhole, rfl⟩
  exact ⟨outcome, call, str, hreached, hpush, haligned⟩

/-! ## A MAC address that begins with a digit -/

theorem device_pushes {text value : CStr} (hclean : get_clean_snmpvalue text = some value) :
    ∃ outcome call,
      (get_collect (deviceAgent text 500 1000) sampleInfo sampleClass sampleHost ⟨0, 0⟩).1[0]? =
          some outcome ∧
        outcome.request = some deviceRequest ∧ outcome.push = some call ∧ call.values = value ∧
        call.stack = [] ∧ call.token = .null ∧ call.in_rrd_template = "octets".toList := by
  rw [get_collect_device, collect_device hclean (by decide)]
  exact ⟨_, _, rfl, rfl, rfl, rfl, rfl, rfl, rfl⟩

/-- The address is stored as six values under one name. -/
theorem misaligned_address :
    ∃ outcome call,
      (get_collect (deviceAgent "STRING: 0:1b:21:3c:4d:5e".toList 500 1000) sampleInfo sampleClass
          sampleHost ⟨0, 0⟩).1[0]? = some outcome ∧
        outcome.push = some call ∧ call.in_rrd_template = "octets".toList ∧
        tokens ':' call.local_values =
          ["0".toList, "1b".toList, "21".toList, "3c".toList, "4d".toList, "5e".toList] ∧
        call.converted = some call.local_values ∧
        ∀ snmp_val str, ¬Aligned decimalLibc sampleClass snmp_val call str := by
  have hclean : get_clean_snmpvalue "STRING: 0:1b:21:3c:4d:5e".toList =
      some "0:1b:21:3c:4d:5e".toList := by decide +kernel
  obtain ⟨outcome, call, hreached, -, hpush, htext, hstack, htoken, htemplate⟩ :=
    device_pushes hclean
  have htokens : tokens ':' call.local_values =
      ["0".toList, "1b".toList, "21".toList, "3c".toList, "4d".toList, "5e".toList] := by
    rw [PushCall.local_values, htext, hstack]
    decide +kernel
  have hread : call.converted = some call.local_values := by
    rw [PushCall.converted, htoken, strtok_start]
  refine ⟨outcome, call, hreached, hpush, htemplate, htokens, hread, fun snmp_val str haligned => ?_⟩
  have hsame : str = call.local_values := Option.some.inj (haligned.read.symm.trans hread)
  have hcount := congrArg List.length haligned.tokens_eq
  rw [hsame, htokens, List.length_take] at hcount
  have hone : sampleClass.oid.length = 1 := rfl
  simp only [List.length_cons, List.length_nil, hone] at hcount
  omega

end SnappCollector.Collection
