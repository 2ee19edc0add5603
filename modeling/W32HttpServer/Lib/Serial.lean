/-
Runs in which no handler is interrupted.

In `Lib.Ownership` threads interleave between any two operations. Where a thread only touches
what is its own, the interleaving does not matter: an operation can be moved in front of a
step that another thread took before it (`swap`), be that an operation or the delivery of a
message. Only a delivery stays behind the step that posted the message. So every run can be
put into an order in which a thread that is given a message goes on until it takes no more
steps in this run (`exec_serial`): the same steps of every thread, the deliveries in the same
order, and in the end the same heap, the same programs and the same messages.

`outcome` is what makes this a matter of two steps and not of the pairs of operations: it is
what a step does, as a datum that depends on the thread's program and the objects it names.
-/
import Mathlib.Data.List.Basic
import Mathlib.Logic.Function.Basic
import Mathlib.Tactic.Common
import W32HttpServer.Lib.Transition
import W32HttpServer.Lib.Ownership

set_option autoImplicit false

namespace W32HttpServer.Lib.Serial

open W32HttpServer.Lib.Transition W32HttpServer.Lib.Ownership

variable {S : Signature} {T A : Type}

/-- The thread that takes the step. -/
def thread : Action S T A → T
  | .run t _ => t
  | .deliver t _ _ => t

/-- Whether a message is delivered by the step. -/
def is_delivery : Action S T A → Bool
  | .run _ _ => false
  | .deliver _ _ _ => true

/-- The same state, up to the order in which objects were made and freed and messages posted.
`owner` is left out, which no step reads. -/
structure Same (s s' : State S T) : Prop where
  heap : s'.heap = s.heap
  threads : s'.threads = s.threads
  born : s'.born.Perm s.born
  freed : s'.freed.Perm s.freed
  flight : s'.flight.Perm s.flight

theorem Same.refl (s : State S T) : Same s s := ⟨rfl, rfl, .rfl, .rfl, .rfl⟩

/-- Two states that are the same as a third are the same. -/
theorem Same.trans {s s' s'' : State S T} (h : Same s s') (h' : Same s' s'') : Same s s'' where
  heap := h'.heap.trans h.heap
  threads := h'.threads.trans h.threads
  born := h'.born.trans h.born
  freed := h'.freed.trans h.freed
  flight := h'.flight.trans h.flight

/-! ## What a step does -/

/-- What one step does, told without the state it is done in: the object it writes, and what it
makes, frees, posts and receives. -/
structure Effect (S : Signature) where
  /-- how the thread goes on -/
  next : Prog S Unit
  write : Option (Σ o, Option (S.Val o)) := none
  born : List S.Obj := []
  freed : List S.Obj := []
  sent : List S.Msg := []
  received : Option S.Msg := none

namespace Effect

def heap (e : Effect S) (h : Heap S) : Heap S :=
  match e.write with
  | none => h
  | some w => h.set w.1 w.2

def flight (e : Effect S) (l : List S.Msg) : List S.Msg :=
  (match e.received with
    | none => l
    | some m => l.erase m) ++ e.sent

/-- An object that is not written keeps its value. -/
theorem heap_of_ne {e : Effect S} {o : S.Obj} (h : Heap S) (hne : ∀ w ∈ e.write, w.1 ≠ o) :
    e.heap h o = h o := by
  unfold heap
  cases hw : e.write with
  | none => rfl
  | some w => exact Heap.set_of_ne h (hne w hw).symm w.2

/-- Two steps that write different objects write them in any order. -/
theorem heap_comm {e e' : Effect S} (h : Heap S)
    (hne : ∀ w ∈ e.write, ∀ w' ∈ e'.write, w.1 ≠ w'.1) :
    e.heap (e'.heap h) = e'.heap (e.heap h) := by
  unfold heap
  cases hw : e.write with
  | none => rfl
  | some w =>
      cases hw' : e'.write with
      | none => rfl
      | some w' =>
          show (h.set w'.1 w'.2).set w.1 w.2 = (h.set w.1 w.2).set w'.1 w'.2
          exact Function.update_comm (hne w hw w' hw').symm w'.2 w.2 h

/-- Messages that are posted do not get in the way of one that was there. -/
theorem flight_comm {e e' : Effect S} {l : List S.Msg} (he : e.received = none)
    (he' : ∀ m ∈ e'.received, m ∈ l) :
    (e'.flight (e.flight l)).Perm (e.flight (e'.flight l)) := by
  unfold flight
  rw [he]
  cases hm : e'.received with
  | none =>
      show (l ++ e.sent ++ e'.sent).Perm (l ++ e'.sent ++ e.sent)
      rw [List.append_assoc, List.append_assoc]
      exact List.perm_append_comm.append_left l
  | some m =>
      show ((l ++ e.sent).erase m ++ e'.sent).Perm (l.erase m ++ e'.sent ++ e.sent)
      rw [List.erase_append_left _ (he' m hm), List.append_assoc, List.append_assoc]
      exact List.perm_append_comm.append_left (l.erase m)

end Effect

/-- What one operation of a program does. -/
def effect : Prog S Unit → Choice S → Heap S → Option (Effect S)
  | .load o k, .plain, h => (h o).map fun v => { next := k v }
  | .store o v k, .plain, h =>
      if (h o).isSome then some { next := k, write := some ⟨o, some v⟩ } else none
  | .alloc _ _ k, .allocated none, _ => some { next := k none }
  | .alloc name v k, .allocated (some n), _ =>
      some { next := k (some n), write := some ⟨name n, some (v n)⟩, born := [name n] }
  | .free o k, .plain, _ => some { next := k, write := some ⟨o, none⟩, freed := [o] }
  | .post m k, .posted ok, _ => some { next := k ok, sent := if ok then [m] else [] }
  | .ask q k, .answered answer, _ => some { next := k (answer q) }
  | _, _, _ => none

/-- What a step of a thread with the program `p` does. -/
def outcome (handler : S.Msg → A → Prog S Unit) (serves : T → Bool) (p : Prog S Unit)
    (h : Heap S) : Action S T A → Option (Effect S)
  | .run _ c => effect p c h
  | .deliver t m a =>
      if serves t ∧ is_idle p then some { next := handler m a, received := some m } else none

section

variable {handler : S.Msg → A → Prog S Unit} {serves : T → Bool} {p : Prog S Unit} {h h' : Heap S}
  {a : Action S T A} {e : Effect S}

/-- A step reads only what its thread names. -/
theorem outcome_congr (hh : ∀ o ∈ touched p, h' o = h o) :
    outcome handler serves p h' a = outcome handler serves p h a := by
  cases a with
  | deliver t m x => rfl
  | run t c =>
      show effect p c h' = effect p c h
      cases p with
      | load o k =>
          have ho : h' o = h o := hh o (List.mem_singleton.mpr rfl)
          cases c <;> simp only [effect, ho]
      | store o v k =>
          have ho : h' o = h o := hh o (List.mem_singleton.mpr rfl)
          cases c <;> simp only [effect, ho]
      | alloc name v k => rcases c with _ | ⟨_ | n⟩ | _ | _ <;> rfl
      | _ => cases c <;> rfl

/-- A step writes only what its thread names, or has just made. -/
theorem outcome_writes (he : outcome handler serves p h a = some e) :
    ∀ w ∈ e.write, w.1 ∈ touched p ++ e.born := by
  cases a with
  | deliver t m x =>
      rw [outcome] at he
      split_ifs at he
      rw [← Option.some.inj he]
      simp
  | run t c =>
      replace he : effect p c h = some e := he
      unfold effect at he
      split at he
      next o k => obtain ⟨v, -, rfl⟩ := Option.map_eq_some_iff.mp he; simp
      next o v k =>
        split_ifs at he
        rw [← Option.some.inj he]
        simp [touched]
      all_goals first
        | (rw [← Option.some.inj he]; simp [touched])
        | cases he

theorem outcome_run_received {t : T} {c : Choice S}
    (he : outcome handler serves p h (.run t c : Action S T A) = some e) : e.received = none := by
  replace he : effect p c h = some e := he
  unfold effect at he
  split at he
  next => obtain ⟨v, -, rfl⟩ := Option.map_eq_some_iff.mp he; rfl
  next =>
    split_ifs at he
    rw [← Option.some.inj he]
  all_goals first
    | rw [← Option.some.inj he]
    | cases he

end

section

variable [DecidableEq T]

/-- What there is after a step of thread `t` with the effect `e`. -/
structure Leaves (s : State S T) (t : T) (e : Effect S) (s' : State S T) : Prop where
  heap : s'.heap = e.heap s.heap
  threads : s'.threads = Function.update s.threads t e.next
  born : s'.born = e.born ++ s.born
  freed : s'.freed = s.freed ++ e.freed
  flight : s'.flight = e.flight s.flight

/-- Names are used once, and a message can be received when it is there. -/
structure Fits (e : Effect S) (s : State S T) : Prop where
  fresh : ∀ o ∈ e.born, o ∉ s.born
  there : ∀ m ∈ e.received, m ∈ s.flight

variable {handler : S.Msg → A → Prog S Unit} {serves : T → Bool} {s s' s1 s2 : State S T}
  {a : Action S T A} {t : T} {c : Choice S} {e : Effect S}

theorem advance_outcome (hs : advance s t c = some s') :
    ∃ e, effect (s.threads t) c s.heap = some e ∧ Fits e s ∧ Leaves s t e s' := by
  unfold advance at hs
  split at hs
  next o k hp =>
    obtain ⟨v, hv, rfl⟩ := Option.map_eq_some_iff.mp hs
    exact ⟨{ next := k v }, by simp [effect, hp, hv], by constructor <;> simp,
      rfl, rfl, rfl, (List.append_nil _).symm, (List.append_nil _).symm⟩
  next o v k hp =>
    split_ifs at hs with ho
    rw [← Option.some.inj hs]
    exact ⟨{ next := k, write := some ⟨o, some v⟩ }, by simp [effect, hp, ho],
      by constructor <;> simp, rfl, rfl, rfl, (List.append_nil _).symm, (List.append_nil _).symm⟩
  next name v k hp =>
    rw [← Option.some.inj hs]
    -- no memory: nothing is made
    exact ⟨{ next := k none }, by simp [effect, hp], by constructor <;> simp,
      rfl, rfl, rfl, (List.append_nil _).symm, (List.append_nil _).symm⟩
  next name v k n hp =>
    split_ifs at hs with hborn
    rw [← Option.some.inj hs]
    exact ⟨{ next := k (some n), write := some ⟨name n, some (v n)⟩, born := [name n] },
      by simp [effect, hp], by constructor <;> simp [hborn],
      rfl, rfl, rfl, (List.append_nil _).symm, (List.append_nil _).symm⟩
  next o k hp =>
    rw [← Option.some.inj hs]
    exact ⟨{ next := k, write := some ⟨o, none⟩, freed := [o] }, by simp [effect, hp],
      by constructor <;> simp, rfl, rfl, rfl, rfl, (List.append_nil _).symm⟩
  next m k ok hp =>
    refine ⟨{ next := k ok, sent := if ok then [m] else [] }, by simp [effect, hp],
      by constructor <;> simp, ?_⟩
    cases ok with
    | true =>
        rw [← Option.some.inj hs]
        exact ⟨rfl, rfl, rfl, (List.append_nil _).symm, rfl⟩
    | false =>
        rw [← Option.some.inj hs]
        exact ⟨rfl, rfl, rfl, (List.append_nil _).symm, (List.append_nil _).symm⟩
  next q k answer hp =>
    rw [← Option.some.inj hs]
    exact ⟨{ next := k (answer q) }, by simp [effect, hp], by constructor <;> simp,
      rfl, rfl, rfl, (List.append_nil _).symm, (List.append_nil _).symm⟩
  next => cases hs

theorem advance_of_effect (he : effect (s.threads t) c s.heap = some e) (hfits : Fits e s) :
    ∃ s', advance s t c = some s' ∧ Leaves s t e s' := by
  unfold effect at he
  split at he
  next _ o k hp =>
    obtain ⟨v, hv, rfl⟩ := Option.map_eq_some_iff.mp he
    simp only [advance, hp, hv, Option.map_some]
    exact ⟨_, rfl, rfl, rfl, rfl, (List.append_nil _).symm, (List.append_nil _).symm⟩
  next _ o v k hp =>
    split_ifs at he with ho
    rw [← Option.some.inj he]
    simp only [advance, hp, if_pos ho]
    exact ⟨_, rfl, rfl, rfl, rfl, (List.append_nil _).symm, (List.append_nil _).symm⟩
  next _ name v k hp =>
    rw [← Option.some.inj he]
    simp only [advance, hp]
    exact ⟨_, rfl, rfl, rfl, rfl, (List.append_nil _).symm, (List.append_nil _).symm⟩
  next _ name v k n hp =>
    rw [← Option.some.inj he] at hfits ⊢
    simp only [advance, hp, if_neg (hfits.fresh (name n) List.mem_cons_self)]
    exact ⟨_, rfl, rfl, rfl, rfl, (List.append_nil _).symm, (List.append_nil _).symm⟩
  next _ o k hp =>
    rw [← Option.some.inj he]
    simp only [advance, hp]
    exact ⟨_, rfl, rfl, rfl, rfl, rfl, (List.append_nil _).symm⟩
  next _ m k ok hp =>
    rw [← Option.some.inj he]
    cases ok with
    | true =>
        simp only [advance, hp, if_true]
        exact ⟨_, rfl, rfl, rfl, rfl, (List.append_nil _).symm, rfl⟩
    | false =>
        simp only [advance, hp, Bool.false_eq_true, if_false]
        exact ⟨_, rfl, rfl, rfl, rfl, (List.append_nil _).symm, (List.append_nil _).symm⟩
  next _ q k answer hp =>
    rw [← Option.some.inj he]
    simp only [advance, hp]
    exact ⟨_, rfl, rfl, rfl, rfl, (List.append_nil _).symm, (List.append_nil _).symm⟩
  next => cases he

/-- **One step**, read off its effect. -/
theorem step_outcome (hs : step handler serves s a = some s') :
    ∃ e, outcome handler serves (s.threads (thread a)) s.heap a = some e ∧ Fits e s
      ∧ Leaves s (thread a) e s' := by
  cases a with
  | run t c => exact advance_outcome hs
  | deliver t m x =>
      rw [step] at hs
      split_ifs at hs with hc
      rw [← Option.some.inj hs]
      exact ⟨{ next := handler m x, received := some m },
        if_pos ⟨hc.1, hc.2.1⟩, ⟨by simp, fun m' hm' => Option.some.inj hm' ▸ hc.2.2⟩,
        rfl, rfl, rfl, (List.append_nil _).symm, (List.append_nil _).symm⟩

theorem step_of_outcome (he : outcome handler serves (s.threads (thread a)) s.heap a = some e)
    (hfits : Fits e s) : ∃ s', step handler serves s a = some s' ∧ Leaves s (thread a) e s' := by
  cases a with
  | run t c => exact advance_of_effect he hfits
  | deliver t m x =>
      rw [outcome] at he
      split_ifs at he with hc
      rw [← Option.some.inj he] at hfits ⊢
      rw [step, if_pos ⟨hc.1, hc.2, hfits.there m rfl⟩]
      exact ⟨_, rfl, rfl, rfl, rfl, (List.append_nil _).symm, (List.append_nil _).symm⟩

/-! ## Moving a step -/

/-- What is the same allows the same steps. -/
theorem Same.step (h : Same s s') (hs : step handler serves s a = some s1) :
    ∃ s1', step handler serves s' a = some s1' ∧ Same s1 s1' := by
  obtain ⟨e, he, hfits, hleaves⟩ := step_outcome hs
  rw [← h.heap, ← h.threads] at he
  obtain ⟨s1', hs1', hleaves'⟩ := step_of_outcome he
    ⟨fun o ho hborn => hfits.fresh o ho (h.born.mem_iff.mp hborn),
      fun m hm => h.flight.mem_iff.mpr (hfits.there m hm)⟩
  refine ⟨s1', hs1', ?_, ?_, ?_, ?_, ?_⟩
  · rw [hleaves.heap, hleaves'.heap, h.heap]
  · rw [hleaves.threads, hleaves'.threads, h.threads]
  · rw [hleaves.born, hleaves'.born]
    exact h.born.append_left e.born
  · rw [hleaves.freed, hleaves'.freed]
    exact h.freed.append_right e.freed
  · rw [hleaves.flight, hleaves'.flight, Effect.flight, Effect.flight]
    apply List.Perm.append_right
    split
    · exact h.flight
    · exact h.flight.erase _

theorem Same.exec {as : List (Action S T A)} : ∀ {s s' s1 : State S T}, Same s s' →
    exec (Ownership.step handler serves) s as = some s1 →
    ∃ s1', exec (Ownership.step handler serves) s' as = some s1' ∧ Same s1 s1' := by
  induction as with
  | nil =>
      intro s s' s1 h hs
      rw [Transition.exec, Option.some.injEq] at hs
      exact ⟨s', rfl, hs ▸ h⟩
  | cons a as ih =>
      intro s s' s1 h hs
      rw [Transition.exec, Option.bind_eq_some_iff] at hs
      obtain ⟨s2, hs2, hs⟩ := hs
      obtain ⟨s2', hs2', h2⟩ := h.step hs2
      obtain ⟨s1', hs1', h1⟩ := ih h2 hs
      exact ⟨s1', by rw [Transition.exec, hs2', Option.bind_some, hs1'], h1⟩

/-- What a thread names is its own, and what is owned has been made. -/
structure Apart (s : State S T) : Prop where
  touches_own : ∀ t, ∀ o ∈ touched (s.threads t), s.owner o = some (.inl t)
  owned_born : ∀ o x, s.owner o = some x → o ∈ s.born

omit [DecidableEq T] in
theorem Apart.touched_ne (h : Apart s) {t u : T} (htu : t ≠ u) {o o' : S.Obj}
    (ho : o ∈ touched (s.threads t)) (ho' : o' ∈ touched (s.threads u)) : o ≠ o' := by
  rintro rfl
  have howner := (h.touches_own t o ho).symm.trans (h.touches_own u o ho')
  exact htu (Sum.inl.inj (Option.some.inj howner))

omit [DecidableEq T] in
theorem Apart.fresh_ne (h : Apart s) {u : T} {o o' : S.Obj} (ho : o ∉ s.born)
    (ho' : o' ∈ touched (s.threads u)) : o ≠ o' := by
  rintro rfl
  exact ho (h.owned_born o _ (h.touches_own u o ho'))

/-- A verified system keeps its threads apart. -/
theorem apart_of_valid {C : Contract S} {credit : T → ℕ} (h : Valid C credit s) : Apart s where
  touches_own := h.safe.touches_own
  owned_born := fun o x ho => h.heap_born o (h.owned_alive o x ho)

/-- **An operation moves to the left.** It gives the same in front of the step of another thread
that was taken just before it. -/
theorem swap (h : Apart s) (hne : thread a ≠ t) (ha : step handler serves s a = some s1)
    (hrun : step handler serves s1 (.run t c) = some s2) :
    ∃ s1' s2', step handler serves s (.run t c) = some s1'
      ∧ step handler serves s1' a = some s2' ∧ Same s2 s2' := by
  obtain ⟨e', he', hfits', hleaves'⟩ := step_outcome ha
  obtain ⟨e, he, hfits, hleaves⟩ := step_outcome hrun
  replace he : outcome handler serves (s1.threads t) s1.heap (.run t c) = some e := he
  rw [hleaves'.threads, Function.update_of_ne hne.symm] at he
  have hwrites' := outcome_writes he'
  have hwrites := outcome_writes he
  have hreceived := outcome_run_received he
  -- what is made is new to both
  have hfresh : ∀ o ∈ e.born, o ∉ e'.born ∧ o ∉ s.born := by
    intro o ho
    have hnew := hfits.fresh o ho
    rw [hleaves'.born, List.mem_append, not_or] at hnew
    exact hnew
  have hapart : ∀ w ∈ e.write, ∀ w' ∈ e'.write, w.1 ≠ w'.1 := by
    intro w hw w' hw'
    rcases List.mem_append.mp (hwrites w hw) with ho | ho <;>
      rcases List.mem_append.mp (hwrites' w' hw') with ho' | ho'
    · exact h.touched_ne hne.symm ho ho'
    · exact (h.fresh_ne (hfits'.fresh _ ho') ho).symm
    · exact h.fresh_ne (hfresh _ ho).2 ho'
    · exact fun heq => (hfresh _ ho).1 (heq ▸ ho')
  -- the operation finds what it names as it was before `a`
  have hfound : ∀ o ∈ touched (s.threads t), s1.heap o = s.heap o := by
    intro o ho
    rw [hleaves'.heap]
    refine Effect.heap_of_ne _ fun w hw => ?_
    rcases List.mem_append.mp (hwrites' w hw) with ho' | ho'
    · exact h.touched_ne hne ho' ho
    · exact h.fresh_ne (hfits'.fresh _ ho') ho
  rw [outcome_congr hfound] at he
  obtain ⟨s1', hs1', hleaves1⟩ := step_of_outcome (a := .run t c) he
    ⟨fun o ho => (hfresh o ho).2, by rw [hreceived]; simp⟩
  replace hleaves1 : Leaves s t e s1' := hleaves1
  -- and `a` finds what it names as it was before the operation
  have hfound' : ∀ o ∈ touched (s.threads (thread a)), s1'.heap o = s.heap o := by
    intro o ho
    rw [hleaves1.heap]
    refine Effect.heap_of_ne _ fun w hw => ?_
    rcases List.mem_append.mp (hwrites w hw) with ho' | ho'
    · exact h.touched_ne hne.symm ho' ho
    · exact h.fresh_ne (hfresh _ ho').2 ho
  rw [← outcome_congr hfound'] at he'
  have hthread : s1'.threads (thread a) = s.threads (thread a) := by
    rw [hleaves1.threads, Function.update_of_ne hne]
  rw [← hthread] at he'
  obtain ⟨s2', hs2', hleaves2⟩ := step_of_outcome he' (by
    refine ⟨fun o ho hborn => ?_, fun m hm => ?_⟩
    · rw [hleaves1.born, List.mem_append] at hborn
      exact hborn.elim (fun hborn => (hfresh o hborn).1 ho) (hfits'.fresh o ho)
    · rw [hleaves1.flight, Effect.flight, hreceived]
      exact List.mem_append_left _ (hfits'.there m hm))
  refine ⟨s1', s2', hs1', hs2', ?_, ?_, ?_, ?_, ?_⟩
  · rw [hleaves2.heap, hleaves1.heap, hleaves.heap, hleaves'.heap]
    exact (Effect.heap_comm s.heap hapart).symm
  · rw [hleaves2.threads, hleaves1.threads, hleaves.threads, hleaves'.threads]
    exact Function.update_comm hne.symm _ _ _
  · rw [hleaves2.born, hleaves1.born, hleaves.born, hleaves'.born, ← List.append_assoc,
      ← List.append_assoc]
    exact List.perm_append_comm.append_right s.born
  · rw [hleaves2.freed, hleaves1.freed, hleaves.freed, hleaves'.freed, List.append_assoc,
      List.append_assoc]
    exact List.perm_append_comm.append_left s.freed
  · rw [hleaves2.flight, hleaves1.flight, hleaves.flight, hleaves'.flight]
    exact Effect.flight_comm hreceived hfits'.there

end

/-! ## Putting a run in order -/

/-- A message that is delivered, and what its handler does. -/
structure Round (S : Signature) (T A : Type) where
  thread : T
  msg : S.Msg
  answer : A
  choices : List (Choice S)

/-- One step of the thread after the other. -/
def operations (t : T) (cs : List (Choice S)) : List (Action S T A) := cs.map (.run t)

def Round.actions (r : Round S T A) : List (Action S T A) :=
  .deliver r.thread r.msg r.answer :: operations r.thread r.choices

/-- Operations of threads that are in their first program, and then one handler after another. -/
def uninterrupted (own : List (T × Choice S)) (rounds : List (Round S T A)) :
    List (Action S T A) :=
  own.map (fun x => .run x.1 x.2) ++ rounds.flatMap Round.actions

section

variable [DecidableEq T]

/-- The steps of one thread, in their order. -/
def steps_of (t : T) (as : List (Action S T A)) : List (Action S T A) :=
  as.filter fun a => thread a = t

/-- The same steps of every thread in the same order, and the same deliveries in the same order. -/
structure Reordered (as bs : List (Action S T A)) : Prop where
  threads : ∀ t, steps_of t bs = steps_of t as
  deliveries : bs.filter is_delivery = as.filter is_delivery

variable {handler : S.Msg → A → Prog S Unit} {serves : T → Bool} {inv : State S T → Prop}
  {s s1 : State S T} {t : T}

/-- An operation moves in front of a list of steps of other threads. -/
theorem move_left (hapart : ∀ s, inv s → Apart s)
    (hinv : ∀ s a s', inv s → step handler serves s a = some s' → inv s') {c : Choice S}
    {pre : List (Action S T A)} : ∀ {s s1 : State S T}, inv s → (∀ a ∈ pre, thread a ≠ t) →
    exec (step handler serves) s (pre ++ [.run t c]) = some s1 →
    ∃ s1', exec (step handler serves) s (.run t c :: pre) = some s1' ∧ Same s1 s1' := by
  induction pre with
  | nil => exact fun _ _ hs => ⟨_, hs, .refl _⟩
  | cons a pre ih =>
      intro s s1 h hpre hs
      rw [List.cons_append, exec, Option.bind_eq_some_iff] at hs
      obtain ⟨s2, hs2, hs⟩ := hs
      obtain ⟨s1', hs1', hsame⟩ :=
        ih (hinv s a s2 h hs2) (fun b hb => hpre b (List.mem_cons_of_mem a hb)) hs
      -- it is behind `a` only now
      rw [exec, Option.bind_eq_some_iff] at hs1'
      obtain ⟨s3, hs3, hs1'⟩ := hs1'
      obtain ⟨s2', s3', hs2', hs3', hsame3⟩ :=
        swap (hapart s h) (hpre a List.mem_cons_self) hs2 hs3
      obtain ⟨s1'', hs1'', hsame1⟩ := hsame3.exec hs1'
      refine ⟨s1'', ?_, hsame.trans hsame1⟩
      rw [exec, hs2', Option.bind_some, exec, hs3', Option.bind_some, hs1'']

/-- What the other threads do moves in front of what `t` does. -/
theorem gather (hapart : ∀ s, inv s → Apart s)
    (hinv : ∀ s a s', inv s → step handler serves s a = some s' → inv s')
    {own : List (T × Choice S)} : ∀ {pre : List (Action S T A)} {s s1 : State S T}, inv s →
    (∀ a ∈ pre, thread a = t) →
    exec (step handler serves) s (pre ++ own.map fun x => .run x.1 x.2) = some s1 →
    ∃ s1', exec (step handler serves) s ((own.filter fun x => x.1 ≠ t).map (fun x => .run x.1 x.2)
      ++ (pre ++ operations t ((own.filter fun x => x.1 = t).map Prod.snd))) = some s1'
        ∧ Same s1 s1' := by
  induction own with
  | nil => exact fun _ _ hs => ⟨_, hs, .refl _⟩
  | cons x own ih =>
      intro pre s s1 h hpre hs
      obtain ⟨u, c⟩ := x
      rw [List.map_cons, ← List.singleton_append, ← List.append_assoc] at hs
      by_cases hu : u = t
      · subst hu
        rw [List.filter_cons_of_neg (by simp), List.filter_cons_of_pos (by simp)]
        -- a step of `t` joins those in front
        have hfront : ∀ a ∈ pre ++ [.run u c], thread a = u := by
          intro a ha
          rw [List.mem_append, List.mem_singleton] at ha
          exact ha.elim (hpre a) fun ha => ha ▸ rfl
        obtain ⟨s1', hs1', hsame⟩ := ih h hfront hs
        refine ⟨s1', ?_, hsame⟩
        rwa [List.append_assoc pre] at hs1'
      · rw [List.filter_cons_of_pos (by simpa using hu), List.filter_cons_of_neg (by simpa using hu)]
        -- a step of another thread is moved to the very front, past those of `t`
        rw [exec_append, Option.bind_eq_some_iff] at hs
        obtain ⟨s2, hs2, hs⟩ := hs
        obtain ⟨s2', hs2', hsame2⟩ :=
          move_left hapart hinv h (fun a ha => (hpre a ha).trans_ne (Ne.symm hu)) hs2
        obtain ⟨s1', hs1', hsame1⟩ := hsame2.exec hs
        rw [exec, Option.bind_eq_some_iff] at hs2'
        obtain ⟨s3, hs3, hs2'⟩ := hs2'
        obtain ⟨s1'', hs1'', hsame⟩ := ih (hinv s _ s3 h hs3) hpre (by
          rw [exec_append, hs2', Option.bind_some, hs1'])
        refine ⟨s1'', ?_, hsame1.trans hsame⟩
        rw [List.map_cons, List.cons_append, exec, hs3, Option.bind_some, hs1'']

theorem steps_of_cons (a : Action S T A) (as : List (Action S T A)) :
    steps_of t (a :: as) = if thread a = t then a :: steps_of t as else steps_of t as := by
  rw [steps_of, List.filter_cons]
  simp only [decide_eq_true_eq, steps_of]

theorem steps_of_append (as bs : List (Action S T A)) :
    steps_of t (as ++ bs) = steps_of t as ++ steps_of t bs := List.filter_append ..

theorem steps_of_others (own : List (T × Choice S)) :
    steps_of t ((own.filter fun x => x.1 ≠ t).map fun x => (.run x.1 x.2 : Action S T A)) = [] := by
  rw [steps_of, List.filter_map, List.map_eq_nil_iff, List.filter_filter, List.filter_eq_nil_iff]
  intro x _
  simp only [Function.comp_apply, thread, Bool.and_eq_true, decide_eq_true_eq]
  exact fun h => h.2 (of_decide_eq_true h.1)

/-- Gathering what `t` does takes nothing out of the order of a thread. -/
theorem steps_of_gathered (own : List (T × Choice S)) (u : T) :
    steps_of u ((own.filter fun x => x.1 ≠ t).map (fun x => (.run x.1 x.2 : Action S T A)))
        ++ steps_of u (operations t ((own.filter fun x => x.1 = t).map Prod.snd))
      = steps_of u (own.map fun x => (.run x.1 x.2 : Action S T A)) := by
  induction own with
  | nil => rfl
  | cons x own ih =>
      obtain ⟨v, c⟩ := x
      rw [List.map_cons, steps_of_cons, ← ih]
      by_cases hv : v = t
      · subst hv
        rw [List.filter_cons_of_neg (by simp), List.filter_cons_of_pos (by simp), List.map_cons,
          operations, List.map_cons, steps_of_cons]
        by_cases hu : v = u
        · -- what `u` does is all on the right
          subst hu
          rw [steps_of_others, List.nil_append, List.nil_append]
          rfl
        · rw [thread, if_neg hu, if_neg hu]
          rfl
      · rw [List.filter_cons_of_pos (by simpa using hv), List.filter_cons_of_neg (by simpa using hv),
          List.map_cons, steps_of_cons]
        split_ifs
        · rfl
        · rfl

/-- `own` and `rounds`, with a delivery to `t` in front. -/
def gathered (t : T) (m : S.Msg) (x : A) (own : List (T × Choice S)) : Round S T A :=
  ⟨t, m, x, (own.filter fun x => x.1 = t).map Prod.snd⟩

theorem steps_of_deliver (m : S.Msg) (x : A) (own : List (T × Choice S))
    (rounds : List (Round S T A)) (u : T) :
    steps_of u (uninterrupted (own.filter fun x => x.1 ≠ t) (gathered t m x own :: rounds))
      = steps_of u (.deliver t m x :: uninterrupted own rounds) := by
  rw [uninterrupted, uninterrupted, List.flatMap_cons, steps_of_append, steps_of_append,
    steps_of_cons, steps_of_append, ← steps_of_gathered (t := t) own u, Round.actions, steps_of_cons]
  show _ ++ ((if t = u then _ else _) ++ _) = if t = u then _ else _
  by_cases hu : t = u
  · subst hu
    rw [if_pos rfl, if_pos rfl, steps_of_others]
    rfl
  · rw [if_neg hu, if_neg hu, ← List.append_assoc]
    rfl

omit [DecidableEq T] in
theorem deliveries_uninterrupted (own : List (T × Choice S)) (rounds : List (Round S T A)) :
    (uninterrupted own rounds).filter is_delivery
      = rounds.map fun r => .deliver r.thread r.msg r.answer := by
  have hnone : ∀ (X : Type) (f : X → Action S T A) (l : List X), (∀ x, is_delivery (f x) = false) →
      (l.map f).filter is_delivery = [] := by
    intro X f l hf
    rw [List.filter_eq_nil_iff]
    intro a ha
    obtain ⟨x, -, rfl⟩ := List.mem_map.mp ha
    simp [hf]
  rw [uninterrupted, List.filter_append, hnone _ _ _ fun _ => rfl, List.nil_append]
  induction rounds with
  | nil => rfl
  | cons r rounds ih =>
      rw [List.flatMap_cons, List.filter_append, ih, Round.actions, List.filter_cons_of_pos rfl,
        operations, hnone _ _ _ fun _ => rfl]
      rfl

/-- **Handlers one after another.** Every run does what one does in which no handler is
interrupted. -/
theorem exec_uninterrupted (hapart : ∀ s, inv s → Apart s)
    (hinv : ∀ s a s', inv s → step handler serves s a = some s' → inv s')
    {as : List (Action S T A)} : ∀ {s s' : State S T}, inv s →
    exec (step handler serves) s as = some s' →
    ∃ own rounds s'', exec (step handler serves) s (uninterrupted own rounds) = some s''
      ∧ Same s' s'' ∧ Reordered as (uninterrupted own rounds) := by
  induction as with
  | nil => exact fun {_ s'} _ hs => ⟨[], [], s', hs, .refl s', fun _ => rfl, rfl⟩
  | cons a as ih =>
      intro s s' h hs
      rw [exec, Option.bind_eq_some_iff] at hs
      obtain ⟨s1, hs1, hs⟩ := hs
      obtain ⟨own, rounds, s2, hs2, hsame2, hreordered⟩ := ih (hinv s a s1 h hs1) hs
      cases a with
      | run t c =>
          refine ⟨(t, c) :: own, rounds, s2, ?_, hsame2, ?_, ?_⟩
          · show (step handler serves s (.run t c)).bind _ = _
            rw [hs1, Option.bind_some]
            exact hs2
          · intro u
            have hrest := hreordered.threads u
            show steps_of u (.run t c :: uninterrupted own rounds) = _
            rw [steps_of_cons, steps_of_cons, hrest]
          · exact hreordered.deliveries
      | deliver t m x =>
          rw [uninterrupted, exec_append, Option.bind_eq_some_iff] at hs2
          obtain ⟨s3, hs3, hs2⟩ := hs2
          have hfront : ∀ a ∈ [Action.deliver (S := S) t m x], thread a = t := by simp [thread]
          obtain ⟨s3', hs3', hsame3⟩ := gather hapart hinv h hfront
            (by rw [List.singleton_append, exec, hs1, Option.bind_some, hs3])
          obtain ⟨s2', hs2', hsame⟩ := hsame3.exec hs2
          refine ⟨own.filter fun x => x.1 ≠ t, gathered t m x own :: rounds, s2', ?_,
            hsame2.trans hsame, ?_, ?_⟩
          · rw [uninterrupted, List.flatMap_cons, ← List.append_assoc, exec_append]
            rw [List.singleton_append] at hs3'
            rw [Round.actions]
            rw [gathered, hs3', Option.bind_some, hs2']
          · intro u
            rw [steps_of_deliver, steps_of_cons, steps_of_cons, hreordered.threads u]
          · have hrest := hreordered.deliveries
            rw [deliveries_uninterrupted] at hrest ⊢
            rw [List.map_cons, hrest]
            rfl

/-- A thread that has returned takes no step before it is given a message. -/
theorem idle_waits {own : List (T × Choice S)} : ∀ {s s' : State S T}, is_idle (s.threads t) →
    exec (step handler serves) s (own.map fun x => .run x.1 x.2) = some s' →
    ∀ x ∈ own, x.1 ≠ t := by
  induction own with
  | nil => exact fun _ _ _ hx => absurd hx List.not_mem_nil
  | cons y own ih =>
      intro s s' hidle hs
      rw [List.map_cons, exec, Option.bind_eq_some_iff] at hs
      obtain ⟨s1, hs1, hs⟩ := hs
      obtain ⟨e, he, -, hleaves⟩ := step_outcome hs1
      have hne : y.1 ≠ t := by
        rintro rfl
        replace he : effect (s.threads y.1) y.2 s.heap = some e := he
        cases hp : s.threads y.1 with
        | ret r => rw [hp] at he; cases he
        | _ => rw [hp] at hidle; exact Bool.false_ne_true hidle
      have hidle1 : is_idle (s1.threads t) := by
        rw [hleaves.threads, thread, Function.update_of_ne (Ne.symm hne)]
        exact hidle
      intro x hx
      rcases List.mem_cons.mp hx with rfl | hx
      · exact hne
      · exact ih hidle1 hs x hx

end

end W32HttpServer.Lib.Serial
