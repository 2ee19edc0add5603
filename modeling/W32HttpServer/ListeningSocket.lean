/-
Whose socket a listener calls `accept` and `closesocket` on.

All runs share the variable `ssocket` and the flag `g_is_server_run`, and `stop_server` does
not wait for the listener it tells to stop. A listener uses both from the socket it makes to
the socket it closes: that is its stretch (`Acting`). While no listener makes a socket in the
stretch of another, the stretches do not overlap, the variable holds the socket of the one
listener in its stretch or nothing, and each call is on a socket of the caller's own
(`own_sockets`). A restart soon behind a stop is enough to make two stretches overlap.
-/
import Mathlib.Logic.Function.Basic
import Mathlib.Tactic.Common
import W32HttpServer.Lib.Transition
import W32HttpServer.MainWindow

set_option autoImplicit false

namespace W32HttpServer.ListeningSocket

open W32HttpServer.MainWindow W32HttpServer.Lib.Transition

/-! ## What should hold -/

/-- The listener is in its serving loop. -/
def Serving : listener_t → Prop
  | .test | .body | .accept _ => True
  | _ => False

/-- Each call of a listener is on the socket its own run made, or on no socket at all. -/
def OwnCalls (calls : List call_t) : Prop :=
  ∀ run sock, .accept run sock ∈ calls ∨ .closesocket (some run) sock ∈ calls →
    sock = none ∨ sock = some run

structure OwnSockets (s : state_t) : Prop where
  one_serving : Exclusive Serving s.listeners
  own_calls : OwnCalls s.calls

/-! ## The stretch of a listener -/

/-- The listener has made its socket and not closed it. -/
def Acting : listener_t → Prop
  | .associate | .refuse | .signal | .test | .body | .accept _ | .close => True
  | _ => False

theorem Serving.acting {pc : listener_t} (h : Serving pc) : Acting pc := by
  cases pc with
  | test | body | accept => trivial
  | _ => exact h.elim

/-- No socket is made in the stretch of another listener. -/
def Alone (s : state_t) : action_t → Prop
  | .listener run _ =>
      s.listeners run = .make_socket → ∀ r, r ≠ run → ¬ Acting (s.listeners r)
  | _ => True

structure Inv (s : state_t) : Prop where
  one_acting : Exclusive Acting s.listeners
  own_socket : ∀ run, Acting (s.listeners run) → s.ssocket = none ∨ s.ssocket = some run
  own_calls : OwnCalls s.calls

theorem init_inv : Inv init where
  one_acting := fun _ _ h => h.elim
  own_socket := fun _ h => h.elim
  own_calls := fun _ _ h => by simp [init] at h

variable {platform : platform_type_t} {s s' : state_t} {run : ℕ}

/-! ## Each kind of step -/

/-- A call of a listener in its stretch is on its own socket. -/
theorem OwnCalls.snoc (h : OwnCalls s.calls) {c : call_t}
    (hc : ∀ r sock, c = .accept r sock ∨ c = .closesocket (some r) sock →
      sock = none ∨ sock = some r) : OwnCalls (s.calls ++ [c]) := by
  intro r sock hmem
  rw [List.mem_append, List.mem_append, List.mem_singleton, List.mem_singleton] at hmem
  rcases hmem with (hmem | hmem) | (hmem | hmem)
  · exact h r sock (Or.inl hmem)
  · exact hc r sock (Or.inl hmem.symm)
  · exact h r sock (Or.inr hmem)
  · exact hc r sock (Or.inr hmem.symm)

/-- The listener in its stretch moves. -/
theorem Inv.inside (h : Inv s) (hacting : Acting (s.listeners run)) (pc : listener_t)
    (lock : ℕ → lock_t) {calls : List call_t} (hcalls : OwnCalls calls) :
    Inv { goto s run pc with lock := lock, calls := calls } where
  one_acting := h.one_acting.inside hacting
  own_socket := by
    intro r hr
    by_cases hne : r = run
    · exact hne ▸ h.own_socket run hacting
    · rw [goto] at hr
      dsimp only at hr
      rw [Function.update_of_ne hne] at hr
      exact h.own_socket r hr
  own_calls := hcalls

/-- A listener goes to a place outside its stretch. -/
theorem Inv.outside (h : Inv s) (pc : listener_t) (hpc : ¬ Acting pc) (lock : ℕ → lock_t)
    (pending : List message_t) {calls : List call_t} (hcalls : OwnCalls calls) :
    Inv { goto s run pc with lock := lock, pending := pending, calls := calls } where
  one_acting := h.one_acting.outside hpc
  own_socket := by
    intro r hr
    rw [goto] at hr
    dsimp only at hr
    by_cases hne : r = run
    · subst hne
      rw [Function.update_self] at hr
      exact absurd hr hpc
    · rw [Function.update_of_ne hne] at hr
      exact h.own_socket r hr
  own_calls := hcalls

theorem listener_inv {ok : Bool} (h : Inv s) (halone : Alone s (.listener run ok))
    (hs : listener_step platform s run ok = some s') : Inv s' := by
  -- the calls of a listener in its stretch
  have haccept : Acting (s.listeners run) → OwnCalls (s.calls ++ [.accept run s.ssocket]) := by
    refine fun hacting => h.own_calls.snoc fun r sock hc => ?_
    obtain ⟨rfl, rfl⟩ : run = r ∧ s.ssocket = sock := by simpa using hc
    exact h.own_socket run hacting
  have hclose : Acting (s.listeners run) →
      OwnCalls (s.calls ++ [.closesocket (some run) s.ssocket]) := by
    refine fun hacting => h.own_calls.snoc fun r sock hc => ?_
    obtain ⟨rfl, rfl⟩ : run = r ∧ s.ssocket = sock := by simpa using hc
    exact h.own_socket run hacting
  unfold listener_step at hs
  split at hs
  next => exact absurd hs (by simp)
  next hpc =>
    rw [Option.some.injEq] at hs
    exact hs ▸ h.outside .make_socket not_false s.lock _ h.own_calls
  next hpc =>
    -- the socket is made: no other listener is in its stretch
    rw [Option.some.injEq] at hs
    have hothers := halone hpc
    refine hs ▸ ⟨.enter hothers, fun r hr => ?_, h.own_calls⟩
    rw [goto] at hr
    dsimp only at hr ⊢
    by_cases hne : r = run
    · rw [hne]
      split_ifs
      · exact Or.inr rfl
      · exact Or.inl rfl
    · rw [Function.update_of_ne hne] at hr
      exact absurd hr (hothers r hne)
  next hpc =>
    rw [Option.some.injEq] at hs
    exact hs ▸ h.inside (by rw [hpc]; trivial) _ s.lock h.own_calls
  next hpc =>
    rw [Option.some.injEq] at hs
    exact hs ▸ h.outside .refuse_signal not_false s.lock s.pending (hclose (by rw [hpc]; trivial))
  next hpc =>
    rw [Option.some.injEq] at hs
    exact hs ▸ h.outside .notify not_false _ s.pending h.own_calls
  next hpc =>
    rw [Option.some.injEq] at hs
    exact hs ▸ h.inside (by rw [hpc]; trivial) _ _ h.own_calls
  next hpc =>
    rw [Option.some.injEq] at hs
    exact hs ▸ h.inside (by rw [hpc]; trivial) _ s.lock h.own_calls
  next hpc =>
    have hacting : Acting (s.listeners run) := by rw [hpc]; trivial
    split_ifs at hs
    · rw [Option.some.injEq] at hs
      exact hs ▸ h.inside hacting _ s.lock h.own_calls
    · rw [Option.some.injEq] at hs
      exact hs ▸ h.inside hacting _ s.lock (haccept hacting)
  next hpc =>
    rw [Option.some.injEq] at hs
    exact hs ▸ h.inside (by rw [hpc]; trivial) _ s.lock h.own_calls
  next hpc =>
    rw [Option.some.injEq] at hs
    exact hs ▸ h.outside .notify not_false s.lock s.pending (hclose (by rw [hpc]; trivial))
  next hpc =>
    rw [Option.some.injEq] at hs
    exact hs ▸ h.outside .finished not_false s.lock _ h.own_calls
  next => exact absurd hs (by simp)

/-- The window thread makes no call in the name of a listener, and sets `ssocket` only to
`INVALID_SOCKET`. -/
theorem Inv.handled (h : Inv s) (hlisteners : s'.listeners = s.listeners)
    (hssocket : s'.ssocket = s.ssocket ∨ s'.ssocket = none) (hcalls : OwnCalls s'.calls) :
    Inv s' where
  one_acting := hlisteners ▸ h.one_acting
  own_socket := by
    intro r hr
    rw [hlisteners] at hr
    rcases hssocket with heq | heq
    · exact heq ▸ h.own_socket r hr
    · exact Or.inl heq
  own_calls := hcalls

theorem handler_inv {ok : Bool} (h : Inv s) (hs : handler_step s ok = some s') : Inv s' := by
  have hmoves := handler_moves hs
  have hcalls : OwnCalls s'.calls := by
    intro r sock hc
    refine h.own_calls r sock (hc.imp (fun hc => ?_) (fun hc => ?_))
    · exact (hmoves.made _ hc).resolve_right id
    · exact (hmoves.made _ hc).resolve_right id
  rcases hmoves.created with hsame | ⟨r, -, hcreated⟩
  · exact h.handled hsame hmoves.ssocket hcalls
  · -- the new listener starts in front of its stretch
    have hstart : Inv (goto s r .start) := h.outside .start not_false s.lock s.pending h.own_calls
    exact hstart.handled hcreated hmoves.ssocket hcalls

theorem step_inv (s : state_t) (a : action_t) (s' : state_t) (h : Inv s) (halone : Alone s a)
    (hs : step platform s a = some s') : Inv s' := by
  cases a with
  | click folder_selected =>
      rw [step] at hs
      split_ifs at hs
      exact Option.some.inj hs ▸ h.handled rfl (Or.inl rfl) h.own_calls
  | window ok => exact handler_inv h hs
  | listener run ok => exact listener_inv h halone hs
  | deliver m =>
      rw [step] at hs
      split_ifs at hs
      rw [Option.some.injEq] at hs
      cases m with
      | W32HTTP_SERVER_STARTED run => exact hs ▸ h.handled rfl (Or.inl rfl) h.own_calls
      | W32HTTP_SERVER_STOPPED run => exact hs ▸ h.handled rfl (Or.inl rfl) h.own_calls

/-- **A listener acts on its own socket** in every run in which no socket is made in the
stretch of another listener. The stretches then follow each other, and the shared variable is that
of the one listener that is in its own. -/
theorem own_sockets (platform : platform_type_t) (as : List action_t) (s : state_t)
    (halone : Meets (step platform) Alone init as) (hs : exec (step platform) init as = some s) :
    OwnSockets s := by
  have h := exec_invariant step_inv as init s init_inv halone hs
  exact ⟨fun r r' hr hr' => h.one_acting r r' hr.acting hr'.acting, h.own_calls⟩

/-! ## Restarts -/

/-- A server is started and waits in `accept`. -/
theorem own_sockets_accept :
    ∃ s, exec (step .PLATFORM_WIN9X) init
        (click_actions ++ serve_win9x 0 ++ [.listener 0 true, .listener 0 true]) = some s
      ∧ .accept 0 (some 0) ∈ s.calls ∧ OwnSockets s := by
  have halone : Meets (step .PLATFORM_WIN9X) Alone init
      (click_actions ++ serve_win9x 0 ++ [.listener 0 true, .listener 0 true]) := by
    have hplace : ∀ (pc : listener_t) {s : state_t} {ok : Bool}, pc ≠ .make_socket →
        s.listeners 0 = pc → Alone s (.listener 0 ok) :=
      fun _ _ _ hne hpc hmake => absurd (hpc.symm.trans hmake) hne
    iterate 6 refine .cons trivial rfl ?_
    refine .cons (hplace .start (by decide) rfl) rfl ?_
    -- the socket is made, and there is no other listener
    refine .cons (fun _ r hr => ?_) rfl ?_
    · have habsent : Function.update (Function.update (fun _ => listener_t.absent) 0 .start) 0
          .make_socket r = .absent := by
        rw [Function.update_of_ne hr, Function.update_of_ne hr]
      exact fun hacting => absurd (habsent ▸ hacting : Acting .absent) id
    refine .cons (hplace .signal (by decide) rfl) rfl ?_
    iterate 2 refine .cons trivial rfl ?_
    refine .cons (hplace .test (by decide) rfl) rfl ?_
    refine .cons (hplace .body (by decide) rfl) rfl ?_
    trivial
  exact ⟨_, rfl, by decide, own_sockets .PLATFORM_WIN9X _ _ halone rfl⟩

/-- The flag is set again while the first listener sleeps. -/
def restart_between_polls : List action_t :=
  click_actions ++ serve_nt 0 ++ [.listener 0 true] ++ click_actions ++ click_actions ++ serve_nt 2

/-- The first listener has left its loop, and closes the variable behind the restart. -/
def late_close : List action_t :=
  click_actions ++ serve_win9x 0 ++ [.listener 0 true, .listener 0 true] ++ click_actions
    ++ [.listener 0 false] ++ click_actions ++ serve_win9x 2 ++ [.listener 0 true]

/-- Two listeners poll, and a listener closes the socket of the next run. Of the NT run it must be
said that every `malloc` for the context of an accept fails in it: where one succeeds the listener
faults before it polls (`AcceptPool`), and there is no second listener. The Win9x run needs no
failure. -/
theorem not_own_sockets :
    (∃ s, exec (step .PLATFORM_WINNT) init restart_between_polls = some s ∧ ¬ OwnSockets s)
      ∧ ∃ s, exec (step .PLATFORM_WIN9X) init late_close = some s ∧ ¬ OwnSockets s := by
  constructor
  · refine ⟨_, rfl, fun h => ?_⟩
    exact absurd (h.one_serving 0 2 trivial trivial) (by decide)
  · refine ⟨_, rfl, fun h => ?_⟩
    have hown := h.own_calls 0 (some 2) (Or.inr (by decide))
    exact absurd hown (by decide)

end W32HttpServer.ListeningSocket
