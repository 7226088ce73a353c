import SnappCollector.Collection.Proofs.RoundTrip
import SnappCollector.Data.Loops

/-!
# A response without an uptime

The cleaning marks an uptime without a number with -1, which begins with no digit and
becomes `U` at its second chance.  `atoi` reads that as 0: the guard in front of the push
never sees the mark.
-/

namespace SnappCollector.Collection

open CLib Data Writer

/-! ## A text without an uptime -/

/-- A `Timeticks` text with no number in parentheses. -/
inductive NoUptime : CStr → Prop where
  | bare {text : CStr} (hticks : "Timeticks".toList <:+: text) (hnone : '(' ∉ text) : NoUptime text
  | null {text front rest inside behind : CStr} (hticks : "Timeticks".toList <:+: text)
      (hopen : Scanned '(' text front rest) (hclose : Scanned ')' rest inside behind)
      (hnull : "null".toList <:+: inside) : NoUptime text

theorem NoUptime.the_value_eq {text : CStr} (h : NoUptime text) :
    the_value text = some "-1".toList := by
  cases h with
  | bare hticks hnone =>
      have hne : text ≠ [] := by
        rintro rfl
        exact absurd (List.infix_nil.mp hticks) (by decide)
      have hempty : strtok_r ')' [] = none := rfl
      rw [the_value, if_pos (strstr_ne_none_iff.mpr hticks)]
      simp only [strtok_r_word hne hnone, Option.bind_some, hempty]
  | null hticks hopen hclose hnull =>
      rw [the_value, if_pos (strstr_ne_none_iff.mpr hticks)]
      simp only [hopen.strtok_r_eq, Option.bind_some, hclose.strtok_r_eq,
        strstr_ne_none_iff.mpr hnull, ne_eq, not_false_eq_true, if_true]

theorem NoUptime.get_clean_snmpvalue_eq {text : CStr} (h : NoUptime text) :
    get_clean_snmpvalue text = some "U".toList := by
  rw [get_clean_snmpvalue, h.the_value_eq]
  decide +kernel

theorem NoUptime.atoi_eq {type : VariableType} {text value : CStr} (h : NoUptime text)
    (hclean : Cleans ⟨type, text⟩ value) : atoi value = 0 := by
  cases hclean with
  | missing => decide +kernel
  | value hvalue =>
      rw [h.get_clean_snmpvalue_eq, Option.some.injEq] at hvalue
      rw [← hvalue]
      decide +kernel

/-! ## Where the loop over the variables stops -/

/-- The loop stops at the variable. -/
def Variable.Exceptional (v : Variable) : Prop := v.type = .ENDOFMIBVIEW ∨ v.type = .NOSUCHOBJECT

def Variable.Readable (v : Variable) : Prop :=
  v.type = .NOSUCHINSTANCE ∨ (the_value v.text).isSome = true

/-- An exception value comes before every text without a value. -/
def Stops (vars : List Variable) : Prop :=
  ∃ before v after, vars = before ++ v :: after ∧ v.Exceptional ∧ ∀ u ∈ before, u.Readable

theorem stops_cons_iff {v : Variable} {vars : List Variable} :
    Stops (v :: vars) ↔ v.Exceptional ∨ v.Readable ∧ Stops vars := by
  constructor
  · rintro ⟨before, w, after, hsplit, hexception, hbefore⟩
    cases before with
    | nil =>
        cases hsplit
        exact .inl hexception
    | cons u before =>
        cases hsplit
        obtain ⟨hv, hrest⟩ := List.forall_mem_cons.mp hbefore
        exact .inr ⟨hv, before, w, after, rfl, hexception, hrest⟩
  · rintro (hexception | ⟨hv, before, w, after, rfl, hexception, hbefore⟩)
    · exact ⟨[], v, vars, rfl, hexception, nofun⟩
    · exact ⟨v :: before, w, after, rfl, hexception, List.forall_mem_cons.mpr ⟨hv, hbefore⟩⟩

theorem snmp_values_cons (v : Variable) (vars : List Variable) :
    v.Exceptional ∧ snmp_values (v :: vars) = .exception ∨
      ¬v.Exceptional ∧ ¬v.Readable ∧ snmp_values (v :: vars) = .undefined ∨
      ¬v.Exceptional ∧ v.Readable ∧ ∃ value, snmp_values (v :: vars) =
        match snmp_values vars with
        | .cleaned snmp_val => .cleaned (value :: snmp_val)
        | stopped => stopped := by
  obtain ⟨type, text⟩ := v
  unfold Variable.Exceptional Variable.Readable
  cases type with
  | ENDOFMIBVIEW => exact .inl ⟨.inl rfl, rfl⟩
  | NOSUCHOBJECT => exact .inl ⟨.inr rfl, rfl⟩
  | NOSUCHINSTANCE => exact .inr (.inr ⟨by simp, .inl rfl, "NAN".toList, rfl⟩)
  | value =>
      right
      simp only [snmp_values, reduceCtorEq, or_self, if_false, not_false_eq_true, true_and,
        false_or, get_clean_snmpvalue]
      cases the_value text with
      | none => exact .inl ⟨by simp, rfl⟩
      | some shown => exact .inr ⟨rfl, _, rfl⟩

theorem snmp_values_spec (vars : List Variable) :
    match snmp_values vars with
    | .exception => Stops vars
    | .cleaned _ => ¬Stops vars ∧ ∀ v ∈ vars, v.Readable
    | .undefined => ¬Stops vars ∧ ¬∀ v ∈ vars, v.Readable := by
  induction vars with
  | nil =>
      refine ⟨?_, nofun⟩
      rintro ⟨before, v, after, hsplit, -⟩
      exact absurd hsplit.symm (by simp)
  | cons v vars ih =>
      rw [stops_cons_iff, List.forall_mem_cons]
      rcases snmp_values_cons v vars with ⟨hstop, hvalues⟩ | ⟨hgo, hlost, hvalues⟩ |
        ⟨hgo, hread, value, hvalues⟩
      · rw [hvalues]
        exact .inl hstop
      · rw [hvalues]
        exact ⟨fun hstops => hstops.elim hgo fun hrest => hlost hrest.1, fun hall => hlost hall.1⟩
      · rw [hvalues]
        cases hrest : snmp_values vars with
        | exception =>
            rw [hrest] at ih
            exact .inr ⟨hread, ih⟩
        | cleaned snmp_val =>
            rw [hrest] at ih
            exact ⟨fun hstops => hstops.elim hgo fun hlater => ih.1 hlater.2, hread, ih.2⟩
        | undefined =>
            rw [hrest] at ih
            exact ⟨fun hstops => hstops.elim hgo fun hlater => ih.1 hlater.2,
              fun hall => ih.2 hall.2⟩

/-! ## The push -/

/-- Nothing is pushed, the clock stays, and the loop keeps to defined behaviour. -/
structure Ignored (clock : Clock) (outcome : Outcome) : Prop where
  push : outcome.push = none
  clock : outcome.clock = clock
  defined : outcome.continuation ≠ .undefined

section

variable {agent : Agent} {cls : SQL_Collection_Class} {host : Host_Info} {clock : Clock} {i : Nat}
  {c : SQL_Collection}

/-- With a value for each OID, the missing uptime is pushed as one of 0 ticks. -/
theorem not_ignored_store_values {request : Request} {snmp_val : List CStr}
    (hlength : snmp_val.length = cls.oid.length + 1) (huptime : uptime cls snmp_val = 0) :
    ¬Ignored clock (store_values agent cls clock i c request snmp_val) := by
  intro hignored
  have hvalid : uptime cls snmp_val ≠ -1 := by
    rw [huptime]
    decide
  by_cases hoid : cls.oid = []
  · apply hignored.defined
    unfold uptime at hvalid
    rw [store_values, if_pos hlength, if_neg hvalid, if_pos hoid]
  · have hpush := hignored.push
    rw [store_values_of_uptime hlength hvalid hoid] at hpush
    cases hpush

/-- A response without an uptime is ignored exactly if an exception value comes first, or the
number of its values is wrong. -/
theorem ignored_iff {oids : List Oid} {others : List Variable} {last : Variable}
    (hrequest : request_variables agent.read_objid cls c = some oids)
    (hanswer : agent.response i ⟨host.ip_address, host.community, oids⟩ =
      .success true (others ++ [last]))
    (huptime : NoUptime last.text) :
    Ignored clock (collect agent cls host clock i c) ↔
      Stops (others ++ [last]) ∨
        (∀ v ∈ others ++ [last], v.Readable) ∧
          (others ++ [last]).length ≠ cls.oid.length + 1 := by
  rw [collect_of_variables hrequest, hanswer]
  have hspec := snmp_values_spec (others ++ [last])
  simp only [handle_response]
  cases hvalues : snmp_values (others ++ [last]) with
  | exception =>
      rw [hvalues] at hspec
      exact iff_of_true ⟨rfl, rfl, by simp⟩ (.inl hspec)
  | undefined =>
      rw [hvalues] at hspec
      exact iff_of_false (fun hignored => hignored.defined rfl) fun hcase =>
        hcase.elim hspec.1 fun hall => hspec.2 hall.1
  | cleaned snmp_val =>
      rw [hvalues] at hspec
      have hcleans := cleans_of_snmp_values hvalues
      have hcount := hcleans.length_eq
      dsimp only
      rw [hcount, or_iff_right hspec.1, and_iff_right hspec.2]
      by_cases hlength : snmp_val.length = cls.oid.length + 1
      · refine iff_of_false (not_ignored_store_values hlength ?_) (not_not.mpr hlength)
        have hlast : (others ++ [last])[cls.oid.length]? = some last := by
          rw [hlength, List.length_append, List.length_singleton, Nat.add_right_cancel_iff] at hcount
          rw [← hcount, List.getElem?_concat_length]
        obtain ⟨value, hvalue, hclean⟩ := getElem?_of_forall₂ hcleans hlast
        rw [uptime, List.getD_eq_getElem?_getD, hvalue, Option.getD_some, huptime.atoi_eq hclean]
        rfl
      · refine iff_of_true ?_ hlength
        simp only [store_values, hlength, if_false]
        exact ⟨rfl, rfl, by simp⟩

end

/-! ## A device that does not know its uptime -/

def clocklessAgent (text : CStr) (others : List Variable) : Agent where
  sess_open := true
  read_objid _ := some [1, 3, 1]
  response _ _ := .success true (others ++ [⟨.value, text⟩])
  time _ := 1000
  stack _ := []
  token _ := .null

theorem noUptime_null : NoUptime "Timeticks: (null)".toList := by
  have hopen : strtok_r '(' "Timeticks: (null)".toList =
      some ("Timeticks: ".toList, "null)".toList) := by decide +kernel
  have hclose : strtok_r ')' "null)".toList = some ("null".toList, []) := by decide +kernel
  exact .null (by decide +kernel) (strtok_r_eq_some_iff.mp hopen) (strtok_r_eq_some_iff.mp hclose)
    (List.infix_refl _)

theorem ignored_exception :
    Ignored ⟨400, 12345⟩
      (collect (clocklessAgent "Timeticks: (null)".toList [⟨.NOSUCHOBJECT, []⟩]) sampleClass
        sampleInfo ⟨400, 12345⟩ 0 sampleCollection) := by
  have hstops : Stops ([⟨.NOSUCHOBJECT, []⟩] ++ [⟨.value, "Timeticks: (null)".toList⟩]) :=
    ⟨[], ⟨.NOSUCHOBJECT, []⟩, [⟨.value, "Timeticks: (null)".toList⟩], rfl, .inr rfl, nofun⟩
  exact (ignored_iff rfl rfl noUptime_null).mpr (.inl hstops)

/-- The uptime of the device is taken for 0, and the value is stored. -/
theorem pushed_without_uptime :
    NoUptime "Timeticks: (null)".toList ∧
      ∃ outcome,
        collect (clocklessAgent "Timeticks: (null)".toList [⟨.value, "Gauge32: 7".toList⟩])
            sampleClass sampleInfo ⟨400, 12345⟩ 0 sampleCollection = outcome ∧
          outcome.push.isSome = true ∧ outcome.clock = ⟨0, 1000⟩ := by
  have hclean : get_clean_snmpvalue "Gauge32: 7".toList = some "7".toList := by decide +kernel
  have hvalues : snmp_values ([⟨.value, "Gauge32: 7".toList⟩] ++
      [⟨.value, "Timeticks: (null)".toList⟩]) = .cleaned ["7".toList, "U".toList] :=
    snmp_values_pair hclean noUptime_null.get_clean_snmpvalue_eq
  have huptime : uptime sampleClass ["7".toList, "U".toList] = 0 := by decide +kernel
  have hcollect : collect (clocklessAgent "Timeticks: (null)".toList
      [⟨.value, "Gauge32: 7".toList⟩]) sampleClass sampleInfo ⟨400, 12345⟩ 0 sampleCollection = _ :=
    collect_of_cleaned rfl rfl hvalues
  rw [store_values_of_uptime rfl (by rw [huptime]; decide) (by decide), huptime] at hcollect
  exact ⟨noUptime_null, _, hcollect, rfl, by decide +kernel⟩

end SnappCollector.Collection
