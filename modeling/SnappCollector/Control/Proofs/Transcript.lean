import SnappCollector.Control.Proofs.Segments
import SnappCollector.Control.Transcript

/-!
# The answers tell what was done

No text but the prompt has a `>`, so a client can tell where each answer ends, and no two answers
have one text.  A client that reads all of them knows every answer and the state of its
connection.
-/

namespace SnappCollector.Control

open CLib

/-! ## One answer -/

theorem dec_int_injective : Function.Injective dec_int := by
  intro y z h
  have hhead : ∀ n : Nat, ∀ text, dec n ≠ '-' :: text := fun n text heq =>
    not_mem_dec (c := '-') (by decide) n (heq ▸ List.mem_cons_self ..)
  unfold dec_int at h
  split at h <;> split at h
  · have habs := dec_injective (List.cons.inj h).2
    omega
  · exact (hhead _ _ h.symm).elim
  · exact (hhead _ _ h).elim
  · have habs := dec_injective h
    omega

def starts : List CStr :=
  ["200 G", "331 P", "230 L", "530 L", "550 R", "200 R", "", "211 S", "Comma", "530 N",
    "500 C"].map String.toList

def Answer.kind : Answer → Nat
  | .goodbye => 0
  | .specify_password => 1
  | .login_successful => 2
  | .login_failure => 3
  | .reload_failed => 4
  | .reload_successful _ => 5
  | .nothing => 6
  | .status _ _ _ _ _ => 7
  | .help => 8
  | .not_logged_in => 9
  | .not_recognized => 10

theorem idxOf_take_text (answer : Answer) : starts.idxOf (answer.text.take 5) = answer.kind := by
  cases answer <;> rfl

theorem kind_of_text {a b : Answer} (h : a.text = b.text) : a.kind = b.kind := by
  rw [← idxOf_take_text, ← idxOf_take_text, h]

theorem append_cons_inj {c : Char} {x y rest rest' : CStr} (hx : c ∉ x) (hy : c ∉ y)
    (h : x ++ c :: rest = y ++ c :: rest') : x = y ∧ rest = rest' := by
  induction x generalizing y with
  | nil =>
      cases y with
      | nil => exact ⟨rfl, (List.cons.inj h).2⟩
      | cons d y => exact (hy ((List.cons.inj h).1 ▸ List.mem_cons_self ..)).elim
  | cons d x ih =>
      cases y with
      | nil => exact (hx ((List.cons.inj h).1 ▸ List.mem_cons_self ..)).elim
      | cons e y =>
          obtain ⟨rfl, htail⟩ := List.cons.inj h
          obtain ⟨rfl, hrest⟩ := ih (fun hmem => hx (List.mem_cons_of_mem _ hmem))
            (fun hmem => hy (List.mem_cons_of_mem _ hmem)) htail
          exact ⟨rfl, hrest⟩

theorem number_inj {α : Type} {print : α → CStr} (hprint : Function.Injective print) {c : Char}
    (hend : ∀ n, c ∉ print n) {rest rest' : CStr} {m n : α}
    (h : print m ++ c :: rest = print n ++ c :: rest') : m = n ∧ rest = rest' :=
  (append_cons_inj (hend m) (hend n) h).imp_left fun hnumber => hprint hnumber

theorem int32_number_inj {c : Char} (hdigit : c.isDigit = false) (hminus : c ≠ '-')
    {rest rest' : CStr} {m n : Int32}
    (h : dec_int m.toInt ++ c :: rest = dec_int n.toInt ++ c :: rest') : m = n ∧ rest = rest' :=
  number_inj (dec_int_injective.comp fun _ _ => Int32.toInt_inj.mp)
    (fun _ => not_mem_dec_int hdigit hminus _) h

theorem number_line_inj {α : Type} {print : α → CStr} (hprint : Function.Injective print)
    (hend : ∀ n, '\r' ∉ print n) (label : String) {rest rest' : CStr} {m n : α}
    (h : number_line label (print m) ++ rest = number_line label (print n) ++ rest') :
    m = n ∧ rest = rest' := by
  simp only [number_line, List.append_assoc, List.append_cancel_left_eq] at h
  obtain ⟨hnumber, hrest⟩ := number_inj hprint hend h
  exact ⟨hnumber, (List.cons.inj hrest).2⟩

theorem int32_line_inj (label : String) {rest rest' : CStr} {m n : Int32}
    (h : number_line label (dec_int m.toInt) ++ rest =
      number_line label (dec_int n.toInt) ++ rest') : m = n ∧ rest = rest' :=
  number_line_inj (dec_int_injective.comp fun _ _ => Int32.toInt_inj.mp)
    (fun _ => not_mem_dec_int (by decide) (by decide) _) label h

theorem uint64_line_inj (label : String) {rest rest' : CStr} {m n : UInt64}
    (h : number_line label (dec m.toNat) ++ rest = number_line label (dec n.toNat) ++ rest') :
    m = n ∧ rest = rest' :=
  number_line_inj (dec_injective.comp fun _ _ => UInt64.toNat_inj.mp)
    (fun _ => not_mem_dec (by decide) _) label h

theorem reload_text_inj {secs secs' : Int32}
    (h : (Answer.reload_successful secs).text = (Answer.reload_successful secs').text) :
    secs = secs' :=
  (int32_number_inj (by decide) (by decide) (List.append_cancel_left h)).1

theorem status_text_inj {classes hosts collections classes' hosts' collections' : Int32}
    {avg_1min avg_5min avg_1min' avg_5min' : UInt64}
    (h : (Answer.status classes hosts collections avg_1min avg_5min).text =
      (Answer.status classes' hosts' collections' avg_1min' avg_5min').text) :
    Answer.status classes hosts collections avg_1min avg_5min =
      .status classes' hosts' collections' avg_1min' avg_5min' := by
  obtain ⟨rfl, htotal⟩ := int32_line_inj _ (List.append_cancel_left h)
  obtain ⟨rfl, hcollections⟩ := int32_line_inj _ htotal
  obtain ⟨rfl, hqueue⟩ := int32_line_inj _ hcollections
  obtain ⟨rfl, hlast⟩ := uint64_line_inj _ hqueue
  rw [← List.append_nil (number_line _ (dec avg_5min.toNat)),
    ← List.append_nil (number_line _ (dec avg_5min'.toNat))] at hlast
  obtain ⟨rfl, -⟩ := uint64_line_inj _ hlast
  rfl

theorem text_injective : Function.Injective Answer.text := by
  intro a b h
  have hkind := kind_of_text h
  cases a with
  | reload_successful secs =>
      cases b with
      | reload_successful secs' => rw [reload_text_inj h]
      | _ => cases hkind
  | status classes hosts collections avg_1min avg_5min =>
      cases b with
      | status => exact status_text_inj h
      | _ => cases hkind
  | _ =>
      cases b with
      | _ => first | rfl | cases hkind

/-! ## All answers -/

theorem not_mem_text (answer : Answer) : '>' ∉ answer.text := by
  have hint : ∀ y, '>' ∉ dec_int y := not_mem_dec_int (by decide) (by decide)
  have hnat : ∀ n, '>' ∉ dec n := not_mem_dec (by decide)
  cases answer with
  | reload_successful secs =>
      exact List.not_mem_append (by decide)
        (List.not_mem_append (hint _) (by decide))
  | status classes hosts collections avg_1min avg_5min =>
      have hline : ∀ (label : String) {number : CStr}, '>' ∉ label.toList → '>' ∉ number →
          '>' ∉ number_line label number := fun label number hlabel hnumber =>
        List.not_mem_append hlabel (List.not_mem_append hnumber (by decide))
      exact List.not_mem_append (by decide)
        (List.not_mem_append (hline _ (by decide) (hint _))
          (List.not_mem_append (hline _ (by decide) (hint _))
            (List.not_mem_append (hline _ (by decide) (hint _))
              (List.not_mem_append (hline _ (by decide) (hnat _))
                (hline _ (by decide) (hnat _))))))
  | _ => decide

def GoodbyeLast (answers : List Answer) : Prop :=
  answers.IsChain fun answer _ => answer ≠ .goodbye

theorem answer_texts_cons {answer : Answer} (h : answer ≠ .goodbye) (rest : List Answer) :
    answer_texts (answer :: rest) =
      (answer.text ++ "snapp".toList) ++ '>' :: ' ' :: answer_texts rest := by
  have hprompt : prompt = "snapp".toList ++ ['>', ' '] := rfl
  rw [answer_texts, hprompt]
  · simp only [List.append_assoc, List.cons_append, List.nil_append]
  · exact h

theorem answer_texts_ne_nil (answer : Answer) (rest : List Answer) :
    answer_texts (answer :: rest) ≠ [] := by
  by_cases hgoodbye : answer = .goodbye
  · subst hgoodbye
    exact List.cons_ne_nil _ _
  · rw [answer_texts_cons hgoodbye]
    exact List.append_ne_nil_of_right_ne_nil _ (List.cons_ne_nil _ _)

/-- Only the goodbye has no prompt behind it. -/
theorem answer_texts_goodbye_ne {answer : Answer} (h : answer ≠ .goodbye)
    (rest rest' : List Answer) :
    answer_texts (.goodbye :: rest) ≠ answer_texts (answer :: rest') := by
  intro heq
  rw [answer_texts_cons h, answer_texts] at heq
  exact not_mem_text .goodbye (heq ▸ List.mem_append_right _ (List.mem_cons_self ..))

theorem GoodbyeLast.eq_singleton {rest : List Answer} (h : GoodbyeLast (.goodbye :: rest)) :
    rest = [] := by
  cases rest with
  | nil => rfl
  | cons => exact ((List.isChain_cons_cons.mp h).1 rfl).elim

theorem answer_texts_injective {xs ys : List Answer} (hxs : GoodbyeLast xs) (hys : GoodbyeLast ys)
    (h : answer_texts xs = answer_texts ys) : xs = ys := by
  induction xs generalizing ys with
  | nil =>
      cases ys with
      | nil => rfl
      | cons y ys => exact (answer_texts_ne_nil y ys h.symm).elim
  | cons x xs ih =>
      cases ys with
      | nil => exact (answer_texts_ne_nil x xs h).elim
      | cons y ys =>
          by_cases hx : x = .goodbye <;> by_cases hy : y = .goodbye
          · subst hx hy
            rw [hxs.eq_singleton, hys.eq_singleton]
          · subst hx
            exact (answer_texts_goodbye_ne hy _ _ h).elim
          · subst hy
            exact (answer_texts_goodbye_ne hx _ _ h.symm).elim
          · rw [answer_texts_cons hx, answer_texts_cons hy] at h
            have hend : ∀ answer : Answer, '>' ∉ answer.text ++ "snapp".toList := fun answer =>
              List.not_mem_append (not_mem_text answer) (by decide)
            obtain ⟨htext, hrest⟩ := append_cons_inj (hend x) (hend y) h
            exact congrArg₂ List.cons (text_injective (List.append_cancel_right htext))
              (ih hxs.tail hys.tail (List.cons.inj hrest).2)

/-! ## Sessions -/

/-- The state of the connection that a client knows of after an answer. -/
def state_told (connection_state : Int32) : Answer → Int32
  | .specify_password => CONTROL_CONNECTION_STATE_USERNAME_RECEIVED
  | .login_successful => CONTROL_CONNECTION_STATE_AUTHENTICATED
  | _ => connection_state

theorem dispatch_told (password : CStr) (buf : List Char) (arg : Option Nat)
    (command state : Int32) (found : Found) :
    (dispatch password buf arg command state).2 =
      state_told state ((dispatch password buf arg command state).1.answer found) := by
  have hreload : state_told state (Work.do_reload.answer found) = state := by
    simp only [Work.answer]
    split <;> rfl
  unfold dispatch
  simp only
  split_ifs
  · rfl
  · rfl
  · cases arg with
    | none => rfl
    | some offset =>
        simp only
        split <;> rfl
  · exact hreload.symm
  · cases arg <;> rfl
  · rfl
  · rfl
  · rfl
  · rfl

theorem answer_ne_goodbye {work : Work} {answer_sent : Bool} (h : goes_on work answer_sent)
    (found : Found) : work.answer found ≠ .goodbye := by
  cases work with
  | goodbye | undefined => cases h
  | do_reload =>
      simp only [Work.answer]
      split <;> exact Answer.noConfusion
  | _ => exact Answer.noConfusion

theorem goodbyeLast_of_serve (password : CStr) (found : Nat → Found) (s : Session)
    (turns : List Turn) : GoodbyeLast (answers found (serve password s turns).1) := by
  induction turns generalizing s found with
  | nil => exact .nil
  | cons turn turns ih =>
      rw [serve]
      split
      · exact .nil
      · simp only
        split
        next hgoes =>
          simp only [answers, List.mapIdx_cons]
          refine List.isChain_cons.mpr ⟨fun _ _ => answer_ne_goodbye hgoes _, ?_⟩
          exact ih (fun i => found (i + 1)) _
        · exact .singleton _

theorem told_of_serve (password : CStr) (found : Nat → Found) (s : Session) (turns : List Turn) :
    (serve password s turns).2 =
      (answers found (serve password s turns).1).foldl state_told s.connection_state := by
  induction turns generalizing s found with
  | nil => rfl
  | cons turn turns ih =>
      have hserve : (serve_buffer password s turn.received).2.connection_state =
          state_told s.connection_state
            ((serve_buffer password s turn.received).1.work.answer (found 0)) :=
        dispatch_told ..
      rw [serve]
      split
      · rfl
      · simp only
        split
        · simp only [answers, List.mapIdx_cons, List.foldl_cons]
          rw [← hserve]
          exact ih (fun i => found (i + 1)) _
        · exact hserve

/-- Two connections whose clients read the same text got the same answers and are in the same
state in the end, whatever was sent and found on each. -/
theorem told_by_transcript (VERSION : CStr) {password password' : CStr} {found found' : Nat → Found}
    {buffers buffers' : List (List Char)}
    (hsame : transcript VERSION (answers found (session password buffers).1) =
      transcript VERSION (answers found' (session password' buffers').1)) :
    answers found (session password buffers).1 =
        answers found' (session password' buffers').1 ∧
      (session password buffers).2 = (session password' buffers').2 := by
  have hlast : ∀ (password : CStr) (found : Nat → Found) (buffers : List (List Char)),
      GoodbyeLast (answers found (session password buffers).1) := fun _ _ _ =>
    goodbyeLast_of_serve ..
  have hstate : ∀ (password : CStr) (found : Nat → Found) (buffers : List (List Char)),
      (session password buffers).2 = (answers found (session password buffers).1).foldl
        state_told CONTROL_CONNECTION_STATE_CONNECTED := fun _ _ _ => told_of_serve ..
  have hanswers := answer_texts_injective (hlast password found buffers)
    (hlast password' found' buffers') (List.append_cancel_left hsame)
  refine ⟨hanswers, ?_⟩
  rw [hstate password found, hstate password' found', hanswers]

def idle : Found := ⟨0, 0, 0, 0, 0, none⟩

theorem told_two_logins :
    answers (fun _ => idle) (session "pw1".toList line_by_line).1 =
        answers (fun _ => idle)
          (session "pw2".toList ["user xyz\r\n".toList, "pass pw2\r\n".toList]).1 ∧
      (session "pw1".toList line_by_line).2 =
        (session "pw2".toList ["user xyz\r\n".toList, "pass pw2\r\n".toList]).2 := by
  refine told_by_transcript "3.0.7".toList ?_
  exact congrArg (transcript _) (by decide +kernel)

end SnappCollector.Control
