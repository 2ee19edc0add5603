/-
What a run of `Lib.Ownership` has done with each object.

A `Recorder` keeps a record of every object. It starts when the object is allocated, and grows
when a message is posted or delivered whose subject the object is. `history` goes through a run
and keeps the records; no program sees them.

A contract cannot speak of them, so the record of an object is made a part of its value, and a
program is changed into one that keeps it there (`recorded`). What the system does with the
programs it does with the recorded ones, in more steps (`Shadows`). The recorded ones are verified
as any program is, and what their contract says of a record whenever a message is posted then holds
of every record in every run (`records_of_run`).
-/
import Mathlib.Logic.Function.Basic
import Mathlib.Tactic.Common
import W32HttpServer.Lib.Transition
import W32HttpServer.Lib.Ownership

set_option autoImplicit false

namespace W32HttpServer.Lib.Record

open W32HttpServer.Lib.Transition W32HttpServer.Lib.Ownership

variable {S : Signature} {R R' T A G : Type}

/-- A record for each object, and the messages that are entered in it. -/
structure Recorder (S : Signature) (A G : Type) where
  subject : S.Msg → S.Obj
  carried : ∀ m, subject m ∈ S.parcel m
  start : G
  posted : ∀ m, S.Val (subject m) → G → G
  taken : S.Msg → A → G → G

/-! ## The records of a run -/

section

variable [DecidableEq T] (r : Recorder S A G)

/-- One step is entered. -/
def enter (s : State S T) (g : S.Obj → G) : Action S T A → S.Obj → G
  | .run t c =>
      match s.threads t, c with
      | .alloc name _ _, .allocated (some n) => Function.update g (name n) r.start
      | .post m _, .posted true =>
          match s.heap (r.subject m) with
          | some v => Function.update g (r.subject m) (r.posted m v (g (r.subject m)))
          | none => g
      | _, _ => g
  | .deliver _ m a => Function.update g (r.subject m) (r.taken m a (g (r.subject m)))

def history (handler : S.Msg → A → Prog S Unit) (serves : T → Bool) :
    State S T → (S.Obj → G) → List (Action S T A) → S.Obj → G
  | _, g, [] => g
  | s, g, a :: as =>
      match step handler serves s a with
      | some s' => history handler serves s' (enter r s g a) as
      | none => g

end

/-! ## Programs that keep the records -/

/-- Each object with its record. -/
abbrev with_records (S : Signature) (G : Type) : Signature where
  Obj := S.Obj
  decObj := S.decObj
  Val o := S.Val o × G
  Msg := S.Msg
  decMsg := S.decMsg
  parcel := S.parcel
  parcel_ne_nil := S.parcel_ne_nil
  Ask := S.Ask
  Answer := S.Answer

/-- A program writes values and leaves the records, but for a post: that is entered before the
message goes, and taken back when the post is refused. -/
def recorded (r : Recorder S A G) : Prog S R → Prog (with_records S G) R
  | .ret x => .ret x
  | .fault => .fault
  | .load o k => .load (S := with_records S G) o fun v => recorded r (k v.1)
  | .store o v k => .load (S := with_records S G) o fun old =>
      .store (S := with_records S G) o (v, old.2) (recorded r k)
  | .alloc name v k => .alloc (S := with_records S G) name (fun n => (v n, r.start))
      fun n => recorded r (k n)
  | .free o k => .free (S := with_records S G) o (recorded r k)
  | .post m k => .load (S := with_records S G) (r.subject m) fun old =>
      .store (S := with_records S G) (r.subject m) (old.1, r.posted m old.1 old.2)
        (.post (S := with_records S G) m fun ok =>
          if ok then recorded r (k true)
          else .store (S := with_records S G) (r.subject m) old (recorded r (k false)))
  | .ask q k => .ask (S := with_records S G) q fun a => recorded r (k a)

/-- A delivery is entered first. -/
def recorded_handler (r : Recorder S A G) (handler : S.Msg → A → Prog S Unit) (m : S.Msg) (a : A) :
    Prog (with_records S G) Unit :=
  .load (S := with_records S G) (r.subject m) fun old =>
    .store (S := with_records S G) (r.subject m) (old.1, r.taken m a old.2)
      (recorded r (handler m a))

theorem recorded_bind (r : Recorder S A G) (p : Prog S R) (f : R → Prog S R') :
    recorded r (p >>= f) = recorded r p >>= fun x => recorded r (f x) := by
  show recorded r (p.bind f) = (recorded r p).bind fun x => recorded r (f x)
  induction p with
  | ret x => rfl
  | fault => rfl
  | load o k ih =>
      rw [Prog.bind, recorded, recorded, Prog.bind]
      exact congrArg _ (funext fun v => ih v.1)
  | store o v k ih =>
      rw [Prog.bind, recorded, recorded, Prog.bind, ih]
      rfl
  | alloc name v k ih =>
      rw [Prog.bind, recorded, recorded, Prog.bind]
      exact congrArg _ (funext ih)
  | free o k ih =>
      rw [Prog.bind, recorded, recorded, Prog.bind, ih]
  | post m k ih =>
      rw [Prog.bind, recorded, recorded, Prog.bind]
      refine congrArg _ (funext fun old => ?_)
      rw [Prog.bind, Prog.bind]
      refine congrArg _ (congrArg _ (funext fun ok => ?_))
      cases ok
      · rw [if_neg Bool.false_ne_true, if_neg Bool.false_ne_true, ih, Prog.bind]
      · rw [if_pos rfl, if_pos rfl, ih]
  | ask q k ih =>
      rw [Prog.bind, recorded, recorded, Prog.bind]
      exact congrArg _ (funext ih)

/-! ## Weakest preconditions -/

section

variable {r : Recorder S A G} {C : Contract (with_records S G)} {h : Heap (with_records S G)} {c : ℕ}

theorem wp_recorded_bind {p : Prog S R} {f : R → Prog S R'}
    {Q : R' → Heap (with_records S G) → ℕ → Prop} :
    wp C (recorded r (p >>= f)) h c Q
      ↔ wp C (recorded r p) h c fun x h' c' => wp C (recorded r (f x)) h' c' Q := by
  rw [recorded_bind, wp_bind]

theorem wp_recorded_pure {x : R} {Q : R → Heap (with_records S G) → ℕ → Prop} :
    wp C (recorded r (pure x)) h c Q ↔ Q x h c := Iff.rfl

theorem wp_recorded_load {o : S.Obj} {v : S.Val o × G}
    {Q : S.Val o → Heap (with_records S G) → ℕ → Prop} (ho : h o = some v) (hQ : Q v.1 h c) :
    wp C (recorded r (load o)) h c Q :=
  ⟨v, ho, hQ⟩

/-- The record stays. -/
theorem wp_recorded_store {o : S.Obj} {v : S.Val o} {old : S.Val o × G}
    {Q : Unit → Heap (with_records S G) → ℕ → Prop} (ho : h o = some old)
    (hQ : Q () (h.set o (some (v, old.2))) c) : wp C (recorded r (store o v)) h c Q :=
  ⟨old, ho, ho.trans_ne (Option.some_ne_none old), hQ⟩

theorem wp_recorded_alloc {name : ℕ → S.Obj} {v : ∀ n, S.Val (name n)}
    {Q : Option ℕ → Heap (with_records S G) → ℕ → Prop}
    (hnone : C.alloc_fails → C.alloc_price ≤ c ∧ Q none h (c - C.alloc_price))
    (hsome : ∀ n, h (name n) = none → Q (some n) (h.set (name n) (some (v n, r.start))) c) :
    wp C (recorded r (alloc name v)) h c Q :=
  ⟨hnone, hsome⟩

theorem wp_recorded_free {o : S.Obj} {Q : Unit → Heap (with_records S G) → ℕ → Prop}
    (ho : h o ≠ none) (hQ : Q () (h.set o none) c) : wp C (recorded r (free o)) h c Q :=
  ⟨ho, hQ⟩

theorem wp_recorded_ask {q : S.Ask} {Q : S.Answer q → Heap (with_records S G) → ℕ → Prop}
    (hq : C.allowed q h) (hQ : ∀ a, C.price q a ≤ c ∧ Q a h (c - C.price q a)) :
    wp C (recorded r (ask q)) h c Q :=
  ⟨hq, hQ⟩

/-- The message goes with the record it is entered in. -/
theorem wp_recorded_post {m : S.Msg} {old : S.Val (r.subject m) × G}
    {Q : Bool → Heap (with_records S G) → ℕ → Prop} (hsubject : h (r.subject m) = some old)
    (hrefused : C.refused m → C.refusal m ≤ c ∧ Q false h (c - C.refusal m))
    (hparcel : ∀ o ∈ S.parcel m, h o ≠ none)
    (hgood : C.good m (Heap.restrict (h.set (r.subject m) (some (old.1, r.posted m old.1 old.2)))
      (S.parcel m)))
    (hworth : C.worth m ≤ c)
    (hposted : Q true (Heap.without (h.set (r.subject m)
      (some (old.1, r.posted m old.1 old.2))) (S.parcel m)) (c - C.worth m)) :
    wp C (recorded r (post m)) h c Q := by
  refine ⟨old, hsubject, hsubject.trans_ne (Option.some_ne_none old), ?_⟩
  refine ⟨fun hr => ⟨(hrefused hr).1, ?_⟩, fun o ho => ?_, hgood, hworth, hposted⟩
  · -- what was entered is taken back
    refine ⟨(Heap.set_self _ _ _).trans_ne (Option.some_ne_none _), ?_⟩
    have hback : Heap.set (h.set (r.subject m) (some (old.1, r.posted m old.1 old.2)))
        (r.subject m) (some old) = h := by
      rw [Heap.set, Heap.set, Function.update_idem, ← hsubject, Function.update_eq_self]
    rw [hback]
    exact (hrefused hr).2
  · rcases eq_or_ne o (r.subject m) with rfl | hne
    · exact (Heap.set_self _ _ _).trans_ne (Option.some_ne_none _)
    · rw [Heap.set_of_ne _ hne]
      exact hparcel o ho

end

/-! ## The two systems -/

section

variable [DecidableEq T] (r : Recorder S A G)

/-- The system with the records in its heap. -/
structure Shadows (g : S.Obj → G) (s : State S T) (s' : State (with_records S G) T) : Prop where
  heap : ∀ o, s'.heap o = (s.heap o).map (·, g o)
  born : s'.born = s.born
  freed : s'.freed = s.freed
  threads : ∀ t, s'.threads t = recorded r (s.threads t)
  flight : s'.flight = s.flight
  owner : s'.owner = s.owner

variable {r} {g : S.Obj → G} {s : State S T} {s' : State (with_records S G) T}

theorem Shadows.update_threads (h : Shadows r g s s') (t : T) (p : Prog S Unit) (u : T) :
    Function.update s'.threads t (recorded r p) u = recorded r (Function.update s.threads t p u) := by
  rcases eq_or_ne u t with rfl | hne
  · rw [Function.update_self, Function.update_self]
  · rw [Function.update_of_ne hne, Function.update_of_ne hne, h.threads u]

theorem Shadows.goto (h : Shadows r g s s') (t : T) (p : Prog S Unit) :
    Shadows r g (goto s t p) (goto s' t (recorded r p)) where
  heap := h.heap
  born := h.born
  freed := h.freed
  threads := h.update_threads t p
  flight := h.flight
  owner := h.owner

/-- One object is written, and its record with it. -/
theorem Shadows.write (h : Shadows r g s s') (t : T) (p : Prog S Unit) (o : S.Obj)
    (v : Option (S.Val o)) (γ : G) (born freed : List S.Obj)
    (owner : S.Obj → Option (T ⊕ S.Msg)) :
    Shadows r (Function.update g o γ)
      { Ownership.goto s t p with
        heap := s.heap.set o v, born := born, freed := freed, owner := owner }
      { Ownership.goto s' t (recorded r p) with
        heap := Heap.set s'.heap o (v.map (·, γ)), born := born, freed := freed
        owner := owner } where
  heap := by
    intro o'
    dsimp only
    rcases eq_or_ne o' o with rfl | hne
    · rw [Heap.set_self, Heap.set_self, Function.update_self]
    · rw [Heap.set_of_ne (S := S) _ hne, Function.update_of_ne hne, ← h.heap o']
      exact Heap.set_of_ne (S := with_records S G) _ hne _
  born := rfl
  freed := rfl
  threads := h.update_threads t p
  flight := h.flight
  owner := rfl

variable {handler : S.Msg → A → Prog S Unit} {serves : T → Bool}

variable (r handler serves) in
/-- Operations of thread `t` take the other system to one that shadows `s1` with the records
`g1`. -/
def Follows (s' : State (with_records S G) T) (t : T) (g1 : S.Obj → G) (s1 : State S T) : Prop :=
  ∃ (cs : List (Choice (with_records S G))) (s1' : State (with_records S G) T),
    exec (step (recorded_handler r handler) serves) s' (cs.map (.run t)) = some s1'
      ∧ Shadows r g1 s1 s1'

/-! ### Single operations -/

section Operations

variable {t : T} {o : S.Obj} {v : S.Val o}

omit [DecidableEq T] in
theorem Shadows.heap_eq_some (h : Shadows r g s s') (hv : s.heap o = some v) :
    s'.heap o = some (v, g o) := by
  rw [h.heap o, hv, Option.map_some]

omit [DecidableEq T] in
theorem Shadows.thread_eq (h : Shadows r g s s') {p : Prog S Unit} (hp : s.threads t = p) :
    s'.threads t = recorded r p := by
  rw [h.threads t, hp]

/-- A load is a load of the value and its record. -/
theorem Shadows.load (h : Shadows r g s s') {k : S.Val o → Prog S Unit}
    (hp : s.threads t = .load o k) (hv : s.heap o = some v) :
    Follows r handler serves s' t g (Ownership.goto s t (k v)) := by
  have hthread := h.thread_eq hp
  have hv' := h.heap_eq_some hv
  rw [recorded] at hthread
  refine ⟨[.plain], Ownership.goto s' t (recorded r (k v)), ?_, h.goto t (k v)⟩
  simp only [List.map_cons, List.map_nil, exec, step, Ownership.advance, hthread, hv',
    Option.map_some, Option.bind_some]

/-- A store reads the record first and writes it back. -/
theorem Shadows.store (h : Shadows r g s s') {old : S.Val o} {k : Prog S Unit}
    (hp : s.threads t = .store o v k) (hold : s.heap o = some old) :
    Follows r handler serves s' t g
      { Ownership.goto s t k with heap := s.heap.set o (some v) } := by
  have hthread := h.thread_eq hp
  have hold' := h.heap_eq_some hold
  rw [recorded] at hthread
  have hwrite := h.write t k o (some v) (g o) s.born s.freed s.owner
  rw [Function.update_eq_self] at hwrite
  refine ⟨[.plain, .plain], _, ?_, hwrite⟩
  simp only [List.map_cons, List.map_nil, exec, step, Ownership.advance, hthread, hold',
    Option.map_some, Option.bind_some, Ownership.goto, Function.update_self, Function.update_idem,
    Option.isSome_some, if_true, h.born, h.freed, h.owner]

section Alloc

variable {name : ℕ → S.Obj} {w : ∀ n, S.Val (name n)} {k : Option ℕ → Prog S Unit}

theorem Shadows.alloc_failed (h : Shadows r g s s') (hp : s.threads t = .alloc name w k) :
    Follows r handler serves s' t g (Ownership.goto s t (k none)) := by
  have hthread := h.thread_eq hp
  rw [recorded] at hthread
  refine ⟨[.allocated none], _, ?_, h.goto t (k none)⟩
  simp only [List.map_cons, List.map_nil, exec, step, Ownership.advance, hthread,
    Option.bind_some]

/-- What is allocated starts with a record of its own. -/
theorem Shadows.alloc (h : Shadows r g s s') {n : ℕ} (hp : s.threads t = .alloc name w k)
    (hborn : name n ∉ s.born) :
    Follows r handler serves s' t (Function.update g (name n) r.start)
      { Ownership.goto s t (k (some n)) with
        heap := s.heap.set (name n) (some (w n))
        born := name n :: s.born
        owner := Function.update s.owner (name n) (some (.inl t)) } := by
  have hthread := h.thread_eq hp
  rw [recorded] at hthread
  have hwrite := h.write t (k (some n)) (name n) (some (w n)) r.start (name n :: s.born) s.freed
    (Function.update s.owner (name n) (some (.inl t)))
  refine ⟨[.allocated (some n)], _, ?_, hwrite⟩
  simp only [List.map_cons, List.map_nil, exec, step, Ownership.advance, hthread, h.born,
    if_neg hborn, Option.bind_some, Ownership.goto, h.freed, h.owner, Option.map_some]

end Alloc

theorem Shadows.free (h : Shadows r g s s') {k : Prog S Unit} (hp : s.threads t = .free o k) :
    Follows r handler serves s' t g
      { Ownership.goto s t k with
        heap := s.heap.set o none
        freed := s.freed ++ [o]
        owner := Function.update s.owner o none } := by
  have hthread := h.thread_eq hp
  rw [recorded] at hthread
  have hwrite := h.write t k o none (g o) s.born (s.freed ++ [o]) (Function.update s.owner o none)
  rw [Function.update_eq_self] at hwrite
  refine ⟨[.plain], _, ?_, hwrite⟩
  simp only [List.map_cons, List.map_nil, exec, step, Ownership.advance, hthread,
    Option.bind_some, Ownership.goto, h.freed, h.owner, h.born, Option.map_none]

theorem Shadows.ask (h : Shadows r g s s') {q : S.Ask} {k : S.Answer q → Prog S Unit}
    {answer : ∀ q, S.Answer q} (hp : s.threads t = .ask q k) :
    Follows r handler serves s' t g (Ownership.goto s t (k (answer q))) := by
  have hthread := h.thread_eq hp
  rw [recorded] at hthread
  refine ⟨[.answered answer], _, ?_, h.goto t (k (answer q))⟩
  simp only [List.map_cons, List.map_nil, exec, step, Ownership.advance, hthread,
    Option.bind_some]

section Post

variable {m : S.Msg} {k : Bool → Prog S Unit} {x : S.Val (r.subject m)}

/-- A message is entered, and goes with its record. -/
theorem Shadows.posted (h : Shadows r g s s') (hp : s.threads t = .post m k)
    (hx : s.heap (r.subject m) = some x) :
    Follows r handler serves s' t
      (Function.update g (r.subject m) (r.posted m x (g (r.subject m))))
      { Ownership.goto s t (k true) with
        flight := s.flight ++ [m]
        owner := fun o => if o ∈ S.parcel m then some (.inr m) else s.owner o } := by
  have hthread := h.thread_eq hp
  have hx' := h.heap_eq_some hx
  rw [recorded] at hthread
  have hwrite := h.write t (k true) (r.subject m) (some x) (r.posted m x (g (r.subject m))) s.born
    s.freed s.owner
  rw [Heap.set_eq_self hx] at hwrite
  refine ⟨[.plain, .plain, .posted true],
    { Ownership.goto s' t (recorded r (k true)) with
      heap := Heap.set s'.heap (r.subject m) (some (x, r.posted m x (g (r.subject m))))
      born := s.born, freed := s.freed, flight := s.flight ++ [m]
      owner := fun o => if o ∈ S.parcel m then some (.inr m) else s.owner o }, ?_,
    ⟨hwrite.heap, rfl, rfl, hwrite.threads, rfl, rfl⟩⟩
  simp only [List.map_cons, List.map_nil, exec, step, Ownership.advance, hthread, hx',
    Option.map_some, Option.bind_some, Ownership.goto, Function.update_self,
    Function.update_idem, Option.isSome_some, if_true, h.born, h.freed, h.owner, h.flight]

/-- What was entered for a message that is refused is taken back. -/
theorem Shadows.refused (h : Shadows r g s s') (hp : s.threads t = .post m k)
    (hx : s.heap (r.subject m) = some x) :
    Follows r handler serves s' t g (Ownership.goto s t (k false)) := by
  have hthread := h.thread_eq hp
  have hx' := h.heap_eq_some hx
  rw [recorded] at hthread
  have hback : Heap.set (Heap.set s'.heap (r.subject m)
      (some (x, r.posted m x (g (r.subject m))))) (r.subject m)
        (some (x, g (r.subject m))) = s'.heap := by
    rw [Heap.set, Heap.set, Function.update_idem, ← hx', Function.update_eq_self]
  refine ⟨[.plain, .plain, .posted false, .plain], _, ?_, h.goto t (k false)⟩
  simp only [List.map_cons, List.map_nil, exec, step, Ownership.advance, hthread, hx',
    Option.map_some, Option.bind_some, Ownership.goto, Function.update_self,
    Function.update_idem, Option.isSome_some, if_true, Bool.false_eq_true, if_false,
    Heap.set_self, hback]

end Post

end Operations

/-! ### All operations -/

/-- **An operation of the one system is a few of the other.** -/
theorem Shadows.advance (h : Shadows r g s s') {t : T} {c : Choice S} {s1 : State S T}
    (halive : ∀ m k, s.threads t = .post m k → s.heap (r.subject m) ≠ none)
    (hs : advance s t c = some s1) :
    Follows r handler serves s' t (enter r s g (.run t c : Action S T A)) s1 := by
  unfold Ownership.advance at hs
  unfold enter
  split at hs
  next o k hp =>
    obtain ⟨v, hv, rfl⟩ := Option.map_eq_some_iff.mp hs
    simpa only [hp] using h.load hp hv
  next o v k hp =>
    split_ifs at hs with hsome
    obtain ⟨old, hold⟩ := Option.isSome_iff_exists.mp hsome
    obtain rfl := Option.some.inj hs
    simpa only [hp] using h.store hp hold
  next name v k hp =>
    obtain rfl := Option.some.inj hs
    simpa only [hp] using h.alloc_failed hp
  next name v k n hp =>
    split_ifs at hs with hborn
    obtain rfl := Option.some.inj hs
    simpa only [hp] using h.alloc hp hborn
  next o k hp =>
    obtain rfl := Option.some.inj hs
    simpa only [hp] using h.free hp
  next m k ok hp =>
    obtain ⟨v, hv⟩ := Option.ne_none_iff_exists'.mp (halive m k hp)
    cases ok with
    | true =>
        obtain rfl := Option.some.inj hs
        simpa only [hp, hv] using h.posted hp hv
    | false =>
        obtain rfl := Option.some.inj hs
        simpa only [hp] using h.refused hp hv
  next q k answer hp =>
    obtain rfl := Option.some.inj hs
    simpa only [hp] using h.ask hp
  next => exact absurd hs (by simp)

theorem is_idle_recorded (p : Prog S Unit) : is_idle (recorded r p) = is_idle p := by
  cases p <;> rfl

/-- A delivery is one and two operations of the other system. -/
theorem Shadows.deliver (h : Shadows r g s s') {t : T} {m : S.Msg} {a : A} {s1 : State S T}
    (halive : m ∈ s.flight → s.heap (r.subject m) ≠ none)
    (hs : step handler serves s (.deliver t m a) = some s1) :
    ∃ s1' : State (with_records S G) T,
      exec (step (recorded_handler r handler) serves) s'
          [.deliver t m a, .run t .plain, .run t .plain] = some s1'
        ∧ Shadows r (enter r s g (.deliver t m a)) s1 s1' := by
  rw [step] at hs
  split_ifs at hs with hc
  obtain rfl := Option.some.inj hs
  obtain ⟨hserves, hidle, hm⟩ := hc
  obtain ⟨v, hv⟩ := Option.ne_none_iff_exists'.mp (halive hm)
  have hv' : s'.heap (r.subject m) = some (v, g (r.subject m)) := by
    rw [h.heap, hv, Option.map_some]
  have hidle' : is_idle (s'.threads t) := by
    rw [h.threads t, is_idle_recorded]
    exact hidle
  have hm' : m ∈ s'.flight := by
    rw [h.flight]
    exact hm
  have hwrite := h.write t (handler m a) (r.subject m) (some v) (r.taken m a (g (r.subject m)))
    s.born s.freed s.owner
  rw [Heap.set_eq_self hv] at hwrite
  refine ⟨{ Ownership.goto s' t (recorded r (handler m a)) with
      heap := Heap.set s'.heap (r.subject m) (some (v, r.taken m a (g (r.subject m))))
      born := s.born, freed := s.freed, flight := s.flight.erase m
      owner := fun o =>
        if o ∈ S.parcel m then some (.inl t)
        else if s.owner o = some (.inl t) then none else s.owner o }, ?_,
    ⟨hwrite.heap, rfl, rfl, hwrite.threads, rfl, rfl⟩⟩
  rw [exec, step, if_pos ⟨hserves, hidle', hm'⟩, Option.bind_some]
  simp only [exec, step, Ownership.advance, hv', Option.map_some, Option.bind_some,
    Ownership.goto, Function.update_self, Function.update_idem, Option.isSome_some, if_true,
    recorded_handler, h.born, h.freed, h.owner, h.flight]

/-! ## Every run -/

variable {C : Contract (with_records S G)} {P : G → Prop}

/-- What is kept: a verified system that has the records of this one. -/
def Kept (C : Contract (with_records S G)) (r : Recorder S A G) (P : G → Prop) (s : State S T)
    (g : S.Obj → G) : Prop :=
  (∃ (s' : State (with_records S G) T) (credit : T → ℕ), Valid C credit s' ∧ Shadows r g s s')
    ∧ ∀ o, P (g o)

/-- The subject of a message in flight is alive, and its record is as the contract says. -/
theorem Shadows.of_flight {credit : T → ℕ} (h : Shadows r g s s') (hvalid : Valid C credit s')
    (hgood : ∀ m h v, C.good m h → h (r.subject m) = some v → P v.2 ∧ ∀ a, P (r.taken m a v.2))
    {m : S.Msg} (hm : m ∈ s.flight) : s.heap (r.subject m) ≠ none ∧ P (g (r.subject m))
      ∧ ∀ a, P (r.taken m a (g (r.subject m))) := by
  rw [← h.flight] at hm
  have howner := (hvalid.carried (r.subject m) m).mpr ⟨hm, r.carried m⟩
  obtain ⟨w, hw⟩ := Option.ne_none_iff_exists'.mp (hvalid.owned_alive _ _ howner)
  have hpiece : piece s'.heap s'.owner (.inr m) (r.subject m) = some w := by
    rw [piece, if_pos howner]
    exact hw
  have hP := hgood m _ w (hvalid.flight_good m hm) hpiece
  rw [h.heap, Option.map_eq_some_iff] at hw
  obtain ⟨v, hv, rfl⟩ := hw
  exact ⟨hv.trans_ne (Option.some_ne_none v), hP⟩

/-- The subject of a message that is about to be posted is alive. -/
theorem Shadows.of_post {credit : T → ℕ} (h : Shadows r g s s') (hvalid : Valid C credit s')
    {t : T} {m : S.Msg} {k : Bool → Prog S Unit} (hp : s.threads t = .post m k) :
    s.heap (r.subject m) ≠ none := by
  have hthread := hvalid.threads t
  rw [h.threads t, hp, recorded] at hthread
  obtain ⟨w, hw, -⟩ := hthread
  have hw' := (piece_eq_some hw).2
  rw [h.heap, Option.map_eq_some_iff] at hw'
  obtain ⟨v, hv, -⟩ := hw'
  exact hv.trans_ne (Option.some_ne_none v)

omit [DecidableEq T] in
/-- What an operation enters. -/
theorem enter_run_cases (r : Recorder S A G) (s : State S T) (g : S.Obj → G) (t : T) (c : Choice S) :
    enter r s g (.run t c : Action S T A) = g
      ∨ (∃ o, enter r s g (.run t c : Action S T A) = Function.update g o r.start)
      ∨ ∃ m k v, s.threads t = .post m k ∧ c = .posted true ∧ s.heap (r.subject m) = some v
        ∧ enter r s g (.run t c : Action S T A)
          = Function.update g (r.subject m) (r.posted m v (g (r.subject m))) := by
  unfold enter
  dsimp only
  split
  next name v k n hp => exact Or.inr (Or.inl ⟨_, rfl⟩)
  next m k hp =>
    split
    next v hv => exact Or.inr (Or.inr ⟨m, k, v, hp, rfl, hv, rfl⟩)
    next => exact Or.inl rfl
  next => exact Or.inl rfl

theorem update_holds (hP : ∀ o, P (g o)) (o : S.Obj) {γ : G} (hγ : P γ) (o' : S.Obj) :
    P (Function.update g o γ o') := by
  rcases eq_or_ne o' o with rfl | hne
  · rwa [Function.update_self]
  · rw [Function.update_of_ne hne]
    exact hP o'

/-- What is entered behind a step that ends in a verified system. -/
theorem Shadows.enter_run {credit : T → ℕ} {s1 : State S T} {s1' : State (with_records S G) T}
    {t : T} {c : Choice S} (h : Shadows r (enter r s g (.run t c : Action S T A)) s1 s1')
    (hvalid : Valid C credit s1')
    (hgood : ∀ m h v, C.good m h → h (r.subject m) = some v → P v.2 ∧ ∀ a, P (r.taken m a v.2))
    (hstart : P r.start) (hs : Ownership.advance s t c = some s1) (hP : ∀ o, P (g o)) (o : S.Obj) :
    P (enter r s g (.run t c : Action S T A) o) := by
  rcases enter_run_cases r s g t c with hsame | ⟨o', halloc⟩ | ⟨m, k, v, hp, rfl, hv, hpost⟩
  · rw [hsame]
    exact hP o
  · rw [halloc]
    exact update_holds hP o' hstart o
  · -- the message is in flight now, with its record
    have hm : m ∈ s1.flight := by
      simp only [Ownership.advance, hp, if_true, Option.some.injEq] at hs
      rw [← hs]
      exact List.mem_append_right _ List.mem_cons_self
    have hrecord := (h.of_flight hvalid hgood hm).2.1
    rw [hpost, Function.update_self] at hrecord
    rw [hpost]
    exact update_holds hP _ hrecord o

variable [Fintype T]

/-- **One step.** -/
theorem Kept.step (halloc : C.alloc_fails) (hrefused : ∀ m, C.refused m)
    (hhandler : ∀ m a h, C.good m h → Verified C (recorded_handler r handler m a) h (C.worth m))
    (hgood : ∀ m h v, C.good m h → h (r.subject m) = some v → P v.2 ∧ ∀ a, P (r.taken m a v.2))
    (hstart : P r.start) (h : Kept C r P s g) {a : Action S T A} {s1 : State S T}
    (hs : Ownership.step handler serves s a = some s1) : Kept C r P s1 (enter r s g a) := by
  obtain ⟨⟨s', credit, hvalid, hshadow⟩, hP⟩ := h
  have hrun : ∀ {as : List (Action (with_records S G) T A)} {s1' : State (with_records S G) T},
      exec (Ownership.step (recorded_handler r handler) serves) s' as = some s1' →
      ∃ credit', Valid C credit' s1' := by
    intro as s1' has
    obtain ⟨credit', hvalid', -⟩ := balanced_of_run hhandler hvalid
      (meets_of_forall (considered_of_all halloc hrefused) as _) has
    exact ⟨credit', hvalid'⟩
  cases a with
  | run t c =>
      obtain ⟨cs, s1', hexec, hshadow1⟩ : Follows r handler serves s' t
          (enter r s g (.run t c : Action S T A)) s1 :=
        hshadow.advance (fun m k hp => hshadow.of_post hvalid hp) hs
      obtain ⟨credit1, hvalid1⟩ := hrun hexec
      exact ⟨⟨s1', credit1, hvalid1, hshadow1⟩, hshadow1.enter_run hvalid1 hgood hstart hs hP⟩
  | deliver t m a =>
      obtain ⟨s1', hexec, hshadow1⟩ := hshadow.deliver (a := a)
        (fun hm => (hshadow.of_flight hvalid hgood hm).1) hs
      obtain ⟨credit1, hvalid1⟩ := hrun hexec
      refine ⟨⟨s1', credit1, hvalid1, hshadow1⟩, fun o => ?_⟩
      have hm : m ∈ s.flight := by
        rw [Ownership.step] at hs
        split_ifs at hs with hc
        exact hc.2.2
      rw [enter]
      exact update_holds hP _ ((hshadow.of_flight hvalid hgood hm).2.2 a) o

/-- **The records of a run.** What the contract says of a record whenever a message is posted
holds of every record, also of those of objects that are gone. -/
theorem records_of_run (halloc : C.alloc_fails) (hrefused : ∀ m, C.refused m)
    (hhandler : ∀ m a h, C.good m h → Verified C (recorded_handler r handler m a) h (C.worth m))
    (hgood : ∀ m h v, C.good m h → h (r.subject m) = some v → P v.2 ∧ ∀ a, P (r.taken m a v.2))
    (hstart : P r.start) {as : List (Action S T A)} : ∀ {s : State S T} {g : S.Obj → G},
      Kept C r P s g → ∀ {s1 : State S T}, exec (Ownership.step handler serves) s as = some s1 →
      ∀ o, P (history r handler serves s g as o) := by
  induction as with
  | nil => exact fun h _ _ => h.2
  | cons a as ih =>
      intro s g h s1 hs
      rw [exec, Option.bind_eq_some_iff] at hs
      obtain ⟨s2, hstep, hs⟩ := hs
      rw [history, hstep]
      exact ih (h.step halloc hrefused hhandler hgood hstart hstep) hs

omit [Fintype T] in
theorem kept_start {threads : T → Prog S Unit} (credit : T → ℕ)
    (h : ∀ t, Verified C (recorded r (threads t)) (fun _ => none) (credit t)) (hstart : P r.start) :
    Kept C r P (start threads) fun _ => r.start :=
  ⟨⟨start fun t => recorded r (threads t), credit, start_valid h,
    ⟨fun _ => rfl, rfl, rfl, fun _ => rfl, rfl, rfl⟩⟩, fun _ => hstart⟩

end

end W32HttpServer.Lib.Record
