/-
A program of `Lib.Ownership` run alone.

`alone` takes a program to its end over a heap, with an environment that answers its
questions and has a state of its own. Where the environment does not answer, the program
faults, touches what is not there or allocates, nothing is said.

What a program does alone is a run of the system: the one in which its thread takes every
step (`exec_alone`). So what is proved about a function of the source, read as one step, says
something about its program.
-/
import W32HttpServer.Lib.Transition
import W32HttpServer.Lib.Ownership

set_option autoImplicit false

namespace W32HttpServer.Lib.Solo

open W32HttpServer.Lib.Transition W32HttpServer.Lib.Ownership

variable {S : Signature} {E R R' T A : Type}

/-- What is behind the operations of a program that runs alone, with a state `E` of its own. `none`
is an operation of which nothing is said. -/
structure Environment (S : Signature) (E : Type) where
  /-- what giving an object back does to the environment -/
  freed : S.Obj → E → E
  post : S.Msg → Heap S → E → Option (Bool × E)
  ask : ∀ q : S.Ask, E → Option (S.Answer q × E)

variable (env : Environment S E)

/-- The program to its end: what it returns, the heap it leaves and the state of the environment.
There is no name for what it might allocate, so a program that allocates has no end here. -/
def alone : Prog S R → Heap S → E → Option (R × Heap S × E)
  | .ret r, h, e => some (r, h, e)
  | .fault, _, _ => none
  | .load o k, h, e => (h o).bind fun v => alone (k v) h e
  | .store o v k, h, e => if (h o).isSome then alone k (h.set o (some v)) e else none
  | .alloc _ _ _, _, _ => none
  | .free o k, h, e => alone k (h.set o none) (env.freed o e)
  | .post m k, h, e => (env.post m h e).bind fun r => alone (k r.1) h r.2
  | .ask q k, h, e => (env.ask q e).bind fun r => alone (k r.1) h r.2

/-! ## Programs in sequence -/

/-- One program behind the other. The induction is on the first. -/
theorem alone_bind (p : Prog S R) (f : R → Prog S R') : ∀ (h : Heap S) (e : E),
    alone env (p >>= f) h e
      = (alone env p h e).bind fun r => alone env (f r.1) r.2.1 r.2.2 := by
  induction p with
  | ret r => exact fun h e => rfl
  | fault => exact fun h e => rfl
  -- each operation is the same on both sides, and its continuation goes on with `f`
  | load o k ih =>
      intro h e
      show (h o).bind (fun v => alone env (k v >>= f) h e) = _
      rw [alone, Option.bind_assoc]
      exact Option.bind_congr fun v _ => ih v h e
  | store o v k ih =>
      intro h e
      show (if (h o).isSome then alone env (k >>= f) (h.set o (some v)) e else none) = _
      rw [alone]
      split_ifs
      · exact ih _ e
      · rfl
  | alloc name v k _ => exact fun h e => rfl
  | free o k ih => exact fun h e => ih _ _
  | post m k ih =>
      intro h e
      show (env.post m h e).bind (fun r => alone env (k r.1 >>= f) h r.2) = _
      rw [alone, Option.bind_assoc]
      exact Option.bind_congr fun r _ => ih r.1 h r.2
  | ask q k ih =>
      intro h e
      show (env.ask q e).bind (fun r => alone env (k r.1 >>= f) h r.2) = _
      rw [alone, Option.bind_assoc]
      exact Option.bind_congr fun r _ => ih r.1 h r.2

variable {env}

/-- A program whose beginning is known. -/
theorem alone_seq {p : Prog S R} {f : R → Prog S R'} {h h' : Heap S} {e e' : E} {r : R}
    (hp : alone env p h e = some (r, h', e')) :
    alone env (p >>= f) h e = alone env (f r) h' e' := by
  rw [alone_bind, hp, Option.bind_some]

@[simp] theorem alone_pure (r : R) (h : Heap S) (e : E) :
    alone env (pure r) h e = some (r, h, e) := rfl

/-- An object is read where there is one. -/
theorem alone_load {o : S.Obj} {h : Heap S} {v : S.Val o} (ho : h o = some v) (e : E) :
    alone env (load o) h e = some (v, h, e) := by
  rw [load, alone, ho, Option.bind_some, alone]

/-- And written where there is one. -/
theorem alone_store {o : S.Obj} {h : Heap S} (ho : (h o).isSome) (v : S.Val o) (e : E) :
    alone env (store o v) h e = some ((), h.set o (some v), e) := by
  rw [store, alone, if_pos ho, alone]

/-- Giving back needs no object: that there is one is the concern of ownership. -/
theorem alone_free (o : S.Obj) (h : Heap S) (e : E) :
    alone env (free o) h e = some ((), h.set o none, env.freed o e) := rfl

/-- The environment says whether a message is posted. -/
theorem alone_post {m : S.Msg} {h : Heap S} {e e' : E} {ok : Bool}
    (hpost : env.post m h e = some (ok, e')) :
    alone env (post m) h e = some (ok, h, e') := by
  rw [post, alone, hpost, Option.bind_some, alone]

/-- A question, and the answer of the environment. -/
theorem alone_ask {q : S.Ask} {e e' : E} {a : S.Answer q} (hask : env.ask q e = some (a, e'))
    (h : Heap S) : alone env (ask q) h e = some (a, h, e') := by
  rw [ask, alone, hask, Option.bind_some, alone]

/-! ## The run of the system -/

section

variable [DecidableEq T]

/-- The thread takes one step and then others. -/
theorem exec_advance {handler : S.Msg → A → Prog S Unit} {serves : T → Bool} {s s1 s' : State S T}
    {t : T} {c : Choice S} {cs : List (Choice S)} (hstep : advance s t c = some s1)
    (hexec : exec (step handler serves) s1 (cs.map (.run t)) = some s') :
    exec (step handler serves) s ((c :: cs).map (.run t)) = some s' := by
  rw [List.map_cons, exec, step, hstep, Option.bind_some]
  exact hexec

/-- **A program that is not interrupted.** What it does alone is what the system does when
its thread takes all the steps. -/
theorem exec_alone (handler : S.Msg → A → Prog S Unit) (serves : T → Bool)
    (hanswer : ∀ q, Nonempty (S.Answer q)) (t : T) (p : Prog S Unit) :
    ∀ {s : State S T} {e e' : E} {h' : Heap S}, s.threads t = p →
      alone env p s.heap e = some ((), h', e') →
      ∃ (choices : List (Choice S)) (s' : State S T),
        exec (step handler serves) s (choices.map (.run t)) = some s'
          ∧ s'.threads t = .ret () ∧ s'.heap = h' := by
  induction p with
  | ret r =>
      intro s e e' h' hp halone
      rw [alone, Option.some.injEq, Prod.mk.injEq, Prod.mk.injEq] at halone
      exact ⟨[], s, rfl, hp, halone.2.1⟩
  | fault =>
      intro s e e' h' hp halone
      cases halone
  | load o k ih =>
      intro s e e' h' hp halone
      rw [alone, Option.bind_eq_some_iff] at halone
      obtain ⟨v, hv, halone⟩ := halone
      have hstep : advance s t .plain = some (goto s t (k v)) := by
        simp only [advance, hp, hv, Option.map_some]
      obtain ⟨cs, s', hexec, hend⟩ := ih v (s := goto s t (k v)) (Function.update_self ..) halone
      exact ⟨.plain :: cs, s', exec_advance hstep hexec, hend⟩
  | store o v k ih =>
      intro s e e' h' hp halone
      rw [alone] at halone
      split_ifs at halone with ho
      obtain ⟨s1, hstep, hthread, hheap⟩ : ∃ s1, advance s t .plain = some s1
          ∧ s1.threads t = k ∧ s1.heap = s.heap.set o (some v) := by
        simp only [advance, hp, if_pos ho]
        exact ⟨_, rfl, Function.update_self .., rfl⟩
      rw [← hheap] at halone
      obtain ⟨cs, s', hexec, hend⟩ := ih hthread halone
      exact ⟨.plain :: cs, s', exec_advance hstep hexec, hend⟩
  | alloc name v k _ =>
      intro s e e' h' hp halone
      cases halone
  | free o k ih =>
      intro s e e' h' hp halone
      rw [alone] at halone
      obtain ⟨s1, hstep, hthread, hheap⟩ : ∃ s1, advance s t .plain = some s1
          ∧ s1.threads t = k ∧ s1.heap = s.heap.set o none := by
        simp only [advance, hp]
        exact ⟨_, rfl, Function.update_self .., rfl⟩
      rw [← hheap] at halone
      obtain ⟨cs, s', hexec, hend⟩ := ih hthread halone
      exact ⟨.plain :: cs, s', exec_advance hstep hexec, hend⟩
  | post m k ih =>
      intro s e e' h' hp halone
      rw [alone, Option.bind_eq_some_iff] at halone
      obtain ⟨⟨ok, e1⟩, -, halone⟩ := halone
      cases ok with
      | true =>
          obtain ⟨s1, hstep, hthread, hheap⟩ : ∃ s1, advance s t (.posted true) = some s1
              ∧ s1.threads t = k true ∧ s1.heap = s.heap := by
            simp only [advance, hp]
            exact ⟨_, rfl, Function.update_self .., rfl⟩
          rw [← hheap] at halone
          obtain ⟨cs, s', hexec, hend⟩ := ih true hthread halone
          exact ⟨.posted true :: cs, s', exec_advance hstep hexec, hend⟩
      | false =>
          have hstep : advance s t (.posted false) = some (goto s t (k false)) := by
            simp only [advance, hp, Bool.false_eq_true, if_false]
          obtain ⟨cs, s', hexec, hend⟩ :=
            ih false (s := goto s t (k false)) (Function.update_self ..) halone
          exact ⟨.posted false :: cs, s', exec_advance hstep hexec, hend⟩
  | ask q k ih =>
      intro s e e' h' hp halone
      rw [alone, Option.bind_eq_some_iff] at halone
      obtain ⟨⟨a, e1⟩, -, halone⟩ := halone
      -- a choice answers every question, also those that are not asked
      classical
      have hstep : advance s t
          (.answered (Function.update (fun q => Classical.choice (hanswer q)) q a))
          = some (goto s t (k a)) := by
        simp only [advance, hp, Function.update_self]
      obtain ⟨cs, s', hexec, hend⟩ := ih a (s := goto s t (k a)) (Function.update_self ..) halone
      exact ⟨_ :: cs, s', exec_advance hstep hexec, hend⟩

end

end W32HttpServer.Lib.Solo
