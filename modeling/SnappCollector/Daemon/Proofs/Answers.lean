import SnappCollector.Daemon.Proofs.Requests

/-!
# The answer of a reload command

`do_reload` takes any change of `current_config` for its own.  It is right if every
configuration that is installed while it looks was loaded after its SIGHUP.
-/

namespace SnappCollector.Daemon

open Machine

/-- The worker may see load `m` installed now: it does not look, or its SIGHUP was sent
before that load. -/
def ClientPlace.spared (m : Nat) : ClientPlace → Bool
  | .kill _ => false
  | .poll i _ _ sent => wait_secs ≤ i || sent < m
  | .poll_lock _ _ sent | .poll_read _ _ sent => sent < m
  | .idle | .status_lock | .status | .sample_lock | .sample | .answered _ _ => true

/-- The step installs no configuration in front of a worker that would take it for its own. -/
def honest (s : State) (a : Action) : Bool :=
  match a, s.main with
  | .main .go, .install => s.client.all fun place => place.spared s.new_config.load
  | _, _ => true

def State.reloaded (s : State) (sent : Nat) : Prop := ∃ m ∈ s.installed, sent < m

/-- What the worker has found, or will find, of its reload. -/
def ClientPlace.truthful (s : State) : ClientPlace → Prop
  | .kill sampled => s.current_config.address = sampled
  | .poll i sampled found sent =>
      (found = sampled ∨ s.reloaded sent) ∧
        (i < wait_secs → s.current_config.address = sampled ∨ s.reloaded sent)
  | .poll_lock _ sampled sent | .poll_read _ sampled sent =>
      s.current_config.address = sampled ∨ s.reloaded sent
  | .answered successful sent => successful = true → s.reloaded sent
  | .idle | .status_lock | .status | .sample_lock | .sample => True

/-! ## What a step changes -/

section

variable {s s' : State} {a : Action} {place : ClientPlace}

def Truthful (s : State) : Prop := ∀ place ∈ s.client, place.truthful s

theorem State.reloaded.mono {sent : Nat} (h : s.reloaded sent)
    (hsub : s.installed ⊆ s'.installed) : s'.reloaded sent := by
  obtain ⟨m, hm, hlt⟩ := h
  exact ⟨m, hsub hm, hlt⟩

theorem ClientPlace.truthful.install (h : place.truthful s)
    (hspared : place.spared s.new_config.load = true)
    (hinstalled : s'.installed = s.installed ++ [s.new_config.load]) : place.truthful s' := by
  have hkept : ∀ {sent : Nat}, s.reloaded sent → s'.reloaded sent := fun hreloaded =>
    hreloaded.mono (hinstalled ▸ List.subset_append_left _ _)
  have hnew : ∀ {sent : Nat}, sent < s.new_config.load → s'.reloaded sent := fun hlt =>
    ⟨_, by simp [hinstalled], hlt⟩
  cases place with
  | kill => cases hspared
  | poll i sampled found sent =>
      simp only [spared, Bool.or_eq_true, decide_eq_true_eq] at hspared
      refine ⟨h.1.imp id hkept, fun hlt => .inr (hnew (hspared.resolve_left ?_))⟩
      omega
  | poll_lock | poll_read =>
      simp only [spared, decide_eq_true_eq] at hspared
      exact .inr (hnew hspared)
  | answered => exact fun hsuccessful => hkept (h hsuccessful)
  | _ => trivial

theorem ClientPlace.truthful.frame (h : place.truthful s)
    (haddress : s'.current_config.address = s.current_config.address)
    (hinstalled : s'.installed = s.installed) : place.truthful s' := by
  unfold truthful State.reloaded at h ⊢
  rw [haddress, hinstalled]
  exact h

theorem Truthful.set {i : Nat} (h : Truthful s)
    (haddress : s'.current_config.address = s.current_config.address)
    (hinstalled : s'.installed = s.installed) (hclient : s'.client = s.client.set i place)
    (hplace : place.truthful s) : Truthful s' := by
  intro other hother
  rw [hclient] at hother
  obtain hmem | rfl := List.mem_or_eq_of_mem_set hother
  · exact (h other hmem).frame haddress hinstalled
  · exact hplace.frame haddress hinstalled

theorem Truthful.frame (h : Truthful s)
    (haddress : s'.current_config.address = s.current_config.address)
    (hinstalled : s'.installed = s.installed) (hclient : s'.client = s.client) : Truthful s' := by
  intro place hplace
  rw [hclient] at hplace
  exact (h place hplace).frame haddress hinstalled

end

/-! ## Every answer is honest -/

section

variable {s s' : State} {a : Action}

theorem truthful_init (k : Nat) : Truthful (State.init k) := by
  intro place hplace
  rw [List.eq_of_mem_replicate hplace]
  trivial

theorem Truthful.step (h : Truthful s) (hok : honest s a = true) (hstep : Step s a s') :
    Truthful s' := by
  cases hstep with
  | main_install hplace =>
      simp only [honest, hplace, List.all_eq_true] at hok
      intro place hmem
      exact (h place hmem).install (hok place hmem) rfl
  | client_call i _ place _ hcall =>
      obtain rfl | rfl := hcall <;> exact h.set rfl rfl rfl trivial
  | status_lock i | status_unlock i | sample_lock i | client_next i =>
      exact h.set rfl rfl rfl trivial
  | sample_unlock i => exact h.set rfl rfl rfl rfl
  | kill i sampled hplace =>
      have hsame : s.current_config.address = sampled := h _ (List.mem_of_getElem? hplace)
      exact h.set rfl rfl rfl ⟨.inl rfl, fun _ => .inl hsame⟩
  | poll_again i n sampled sent hplace hleft =>
      have hpoll := h _ (List.mem_of_getElem? hplace)
      exact h.set rfl rfl rfl (hpoll.2 hleft)
  | poll_end i n sampled found sent hplace =>
      have hpoll := h _ (List.mem_of_getElem? hplace)
      refine h.set rfl rfl rfl fun hsuccessful => hpoll.1.resolve_left ?_
      simpa using hsuccessful
  | poll_lock i n sampled sent hplace =>
      have hpoll := h _ (List.mem_of_getElem? hplace)
      exact h.set rfl rfl rfl hpoll
  | poll_unlock i n sampled sent hplace =>
      have hpoll := h _ (List.mem_of_getElem? hplace)
      exact h.set rfl rfl rfl ⟨hpoll, fun _ => hpoll⟩
  | hup_signal | term_signal =>
      refine h.frame ?_ (cond_signal_installed s) (cond_signal_client s)
      exact congrArg Config.address (cond_signal_current_config s)
  | _ => exact h.frame rfl rfl rfl

/-- If no configuration is installed in front of a worker that would take it for its own,
the answer 200 means that one was installed whose load was started after the SIGHUP. -/
theorem reloaded_of_honest {k i sent : Nat}
    (h : Reaches step (fun s a => honest s a = true) (State.init k) s)
    (hanswer : s.client[i]? = some (.answered true sent)) : ∃ m ∈ s.installed, sent < m := by
  have htruthful : Truthful s :=
    h.invariant (truthful_init k) fun _ _ _ hinv hok hs => hinv.step hok (step_sound hs).2
  exact htruthful _ (List.mem_of_getElem? hanswer) rfl

end

/-! ## A run of each kind -/

def request_actions : List Action :=
  [.client 0 .do_reload, .client 0 .go, .client 0 .go, .client 0 .go]

def answer_actions : List Action :=
  [.client 0 .go, .client 0 .go, .client 0 .go, .client 0 .go]

def honest_run : List Action :=
  wait_actions ++ request_actions ++
    [.sigwait .SIGHUP, .signal_thread, .signal_thread, .signal_thread] ++ new_actions 1 ++
    load_actions ++ install_actions ++ answer_actions

theorem reloaded_on_request : ∃ s : State, s.client = [.answered true 0] ∧
    ∃ m ∈ s.installed, 0 < m := by
  have hreach : Reaches step (fun s a => honest s a = true) (State.init 1) (after 1 honest_run) :=
    reaches_after (by decide)
  exact ⟨_, by decide, @reloaded_of_honest _ 1 0 0 hreach (by decide)⟩

/-- The request comes while a load runs that the timer started. -/
def overlap_run : List Action :=
  wait_actions ++ [.main .timeout] ++ new_actions 1 ++ request_actions ++ load_actions ++
    install_actions ++ answer_actions

/-- The worker answers 200, and nothing that was loaded after its SIGHUP is installed. -/
theorem answered_early : ∃ s : State, Reachable step (State.init 1) s ∧
    s.client = [.answered true 1] ∧ ¬∃ m ∈ s.installed, 1 < m :=
  ⟨after 1 overlap_run, reachable_after (by decide), by decide, by decide⟩

end SnappCollector.Daemon
