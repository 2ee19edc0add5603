/-
Threads that pass objects to each other by posting messages.

A program (`Prog`) works on objects of a heap: it loads, stores, allocates and frees, asks
its environment questions, and posts messages. A message that is posted takes a parcel of
objects with it, and the thread it is delivered to gets them; there is no lock. A post may be
refused, and then the parcel stays where it was.

`wp` is the weakest precondition of a program over the objects it owns. Loading, storing,
freeing and posting need the objects they name, a message needs what its handler relies on
(`good`), and what went with a message is gone. Threads interleave one operation at a time,
over one heap (`step`). `owner` records who has which object; no step reads it.

A thread also has credits, which it must have spent when it returns. A message takes its
worth in credits along, and a call that fails costs what the contract says. Credits are not
in the program or the state: they are what can be counted on to happen still.

The rules are `safe_of_run` and `balanced_of_run`: when every thread starts with a program
that is verified for what it owns, and the handler of every message is verified for what
`good` promises, then in every state of every run a thread only touches objects that are its
own, nothing is freed twice, and the credits of the threads, the worth of the messages in
flight and what has been lost add up to the credits at the start. No thread's proof mentions
another thread.
-/
import Mathlib.Algebra.BigOperators.Group.Finset.Basic
import Mathlib.Algebra.BigOperators.Group.List.Basic
import Mathlib.Data.Fintype.Basic
import Mathlib.Logic.Function.Basic
import Mathlib.Data.List.Count
import Mathlib.Data.List.Nodup
import Mathlib.Tactic.Common
import W32HttpServer.Lib.Transition

set_option autoImplicit false

namespace W32HttpServer.Lib.Ownership

open W32HttpServer.Lib.Transition

/-- The objects of a heap with the type of each, the messages, and the questions a program
asks its environment. -/
structure Signature where
  Obj : Type
  [decObj : DecidableEq Obj]
  Val : Obj → Type
  Msg : Type
  [decMsg : DecidableEq Msg]
  /-- The objects that go with a message. -/
  parcel : Msg → List Obj
  parcel_ne_nil : ∀ m, parcel m ≠ []
  Ask : Type
  Answer : Ask → Type

attribute [instance] Signature.decObj Signature.decMsg

variable {S : Signature} {R R' T A : Type}

/-! ## Heaps -/

/-- A heap, or the part of one that somebody owns. -/
abbrev Heap (S : Signature) := ∀ o : S.Obj, Option (S.Val o)

namespace Heap

def set (h : Heap S) (o : S.Obj) (v : Option (S.Val o)) : Heap S := Function.update h o v

/-- The objects of a list. -/
def restrict (h : Heap S) (l : List S.Obj) : Heap S := fun o => if o ∈ l then h o else none

def without (h : Heap S) (l : List S.Obj) : Heap S := fun o => if o ∈ l then none else h o

@[simp] theorem set_self (h : Heap S) (o : S.Obj) (v : Option (S.Val o)) : h.set o v o = v := by
  rw [set, Function.update_self]

@[simp] theorem set_of_ne (h : Heap S) {o o' : S.Obj} (hne : o' ≠ o) (v : Option (S.Val o)) :
    h.set o v o' = h o' := by
  rw [set, Function.update_of_ne hne]

theorem set_eq_self {h : Heap S} {o : S.Obj} {v : Option (S.Val o)} (ho : h o = v) :
    h.set o v = h := by
  rw [set, ← ho, Function.update_eq_self]

end Heap

/-! ## Programs -/

inductive Prog (S : Signature) (R : Type)
  | ret (r : R)
  /-- an access the machine does not survive -/
  | fault
  | load (o : S.Obj) (k : S.Val o → Prog S R)
  | store (o : S.Obj) (v : S.Val o) (k : Prog S R)
  | alloc (name : ℕ → S.Obj) (v : ∀ n, S.Val (name n)) (k : Option ℕ → Prog S R)
  | free (o : S.Obj) (k : Prog S R)
  | post (m : S.Msg) (k : Bool → Prog S R)
  | ask (q : S.Ask) (k : S.Answer q → Prog S R)

namespace Prog

def bind : Prog S R → (R → Prog S R') → Prog S R'
  | .ret r, f => f r
  | .fault, _ => .fault
  | .load o k, f => .load o fun v => bind (k v) f
  | .store o v k, f => .store o v (bind k f)
  | .alloc name v k, f => .alloc name v fun n => bind (k n) f
  | .free o k, f => .free o (bind k f)
  | .post m k, f => .post m fun ok => bind (k ok) f
  | .ask q k, f => .ask q fun a => bind (k a) f

instance : Monad (Prog S) where
  pure := .ret
  bind := .bind

end Prog

def load (o : S.Obj) : Prog S (S.Val o) := .load o .ret

def store (o : S.Obj) (v : S.Val o) : Prog S Unit := .store o v (.ret ())

def alloc (name : ℕ → S.Obj) (v : ∀ n, S.Val (name n)) : Prog S (Option ℕ) := .alloc name v .ret

def free (o : S.Obj) : Prog S Unit := .free o (.ret ())

def post (m : S.Msg) : Prog S Bool := .post m .ret

def ask (q : S.Ask) : Prog S (S.Answer q) := .ask q .ret

/-! ## Weakest preconditions -/

/-- What the threads promise each other, which failures are considered, and what they cost. -/
structure Contract (S : Signature) where
  /-- what the handler of a message relies on -/
  good : S.Msg → Heap S → Prop
  /-- what a program needs to ask a question -/
  allowed : S.Ask → Heap S → Prop
  alloc_fails : Prop
  refused : S.Msg → Prop
  faults : Prop
  /-- the credits that go with a message -/
  worth : S.Msg → ℕ
  alloc_price : ℕ
  refusal : S.Msg → ℕ
  price : ∀ q, S.Answer q → ℕ

section

variable (C : Contract S)

def wp : Prog S R → Heap S → ℕ → (R → Heap S → ℕ → Prop) → Prop
  | .ret r, h, c, Q => Q r h c
  | .fault, _, _, _ => C.faults
  | .load o k, h, c, Q => ∃ v, h o = some v ∧ wp (k v) h c Q
  | .store o v k, h, c, Q => h o ≠ none ∧ wp k (h.set o (some v)) c Q
  | .alloc name v k, h, c, Q =>
      (C.alloc_fails → C.alloc_price ≤ c ∧ wp (k none) h (c - C.alloc_price) Q)
        ∧ ∀ n, h (name n) = none → wp (k (some n)) (h.set (name n) (some (v n))) c Q
  | .free o k, h, c, Q => h o ≠ none ∧ wp k (h.set o none) c Q
  | .post m k, h, c, Q =>
      (C.refused m → C.refusal m ≤ c ∧ wp (k false) h (c - C.refusal m) Q)
        ∧ (∀ o ∈ S.parcel m, h o ≠ none) ∧ C.good m (h.restrict (S.parcel m)) ∧ C.worth m ≤ c
        ∧ wp (k true) (h.without (S.parcel m)) (c - C.worth m) Q
  | .ask q k, h, c, Q =>
      C.allowed q h ∧ ∀ a, C.price q a ≤ c ∧ wp (k a) h (c - C.price q a) Q

variable {C}

/-- A program in sequence with another. -/
theorem wp_bind {p : Prog S R} {f : R → Prog S R'} : ∀ {h : Heap S} {c : ℕ}
    {Q : R' → Heap S → ℕ → Prop},
    wp C (p >>= f) h c Q ↔ wp C p h c fun r h' c' => wp C (f r) h' c' Q := by
  induction p with
  | ret r => exact fun {_ _ _} => Iff.rfl
  | fault => exact fun {_ _ _} => Iff.rfl
  | load o k ih =>
      intro h c Q
      exact exists_congr fun v => and_congr_right fun _ => ih v
  | store o v k ih =>
      intro h c Q
      exact and_congr_right fun _ => ih
  | alloc name v k ih =>
      intro h c Q
      exact and_congr (imp_congr_right fun _ => and_congr_right fun _ => ih none)
        (forall_congr' fun n => imp_congr_right fun _ => ih (some n))
  | free o k ih =>
      intro h c Q
      exact and_congr_right fun _ => ih
  | post m k ih =>
      intro h c Q
      exact and_congr (imp_congr_right fun _ => and_congr_right fun _ => ih false)
        (and_congr_right fun _ => and_congr_right fun _ => and_congr_right fun _ => ih true)
  | ask q k ih =>
      intro h c Q
      exact and_congr_right fun _ => forall_congr' fun a => and_congr_right fun _ => ih a

end

/-! ### The operations -/

section

variable {C : Contract S} {h : Heap S} {c : ℕ}

@[simp] theorem wp_pure {r : R} {Q : R → Heap S → ℕ → Prop} :
    wp C (pure r) h c Q ↔ Q r h c := Iff.rfl

@[simp] theorem wp_load {o : S.Obj} {Q : S.Val o → Heap S → ℕ → Prop} :
    wp C (load o) h c Q ↔ ∃ v, h o = some v ∧ Q v h c := Iff.rfl

@[simp] theorem wp_store {o : S.Obj} {v : S.Val o} {Q : Unit → Heap S → ℕ → Prop} :
    wp C (store o v) h c Q ↔ h o ≠ none ∧ Q () (h.set o (some v)) c := Iff.rfl

@[simp] theorem wp_alloc {name : ℕ → S.Obj} {v : ∀ n, S.Val (name n)}
    {Q : Option ℕ → Heap S → ℕ → Prop} :
    wp C (alloc name v) h c Q
      ↔ (C.alloc_fails → C.alloc_price ≤ c ∧ Q none h (c - C.alloc_price))
        ∧ ∀ n, h (name n) = none → Q (some n) (h.set (name n) (some (v n))) c := Iff.rfl

@[simp] theorem wp_free {o : S.Obj} {Q : Unit → Heap S → ℕ → Prop} :
    wp C (free o) h c Q ↔ h o ≠ none ∧ Q () (h.set o none) c := Iff.rfl

@[simp] theorem wp_post {m : S.Msg} {Q : Bool → Heap S → ℕ → Prop} :
    wp C (post m) h c Q ↔ (C.refused m → C.refusal m ≤ c ∧ Q false h (c - C.refusal m))
      ∧ (∀ o ∈ S.parcel m, h o ≠ none) ∧ C.good m (h.restrict (S.parcel m)) ∧ C.worth m ≤ c
      ∧ Q true (h.without (S.parcel m)) (c - C.worth m) := Iff.rfl

@[simp] theorem wp_ask {q : S.Ask} {Q : S.Answer q → Heap S → ℕ → Prop} :
    wp C (ask q) h c Q
      ↔ C.allowed q h ∧ ∀ a, C.price q a ≤ c ∧ Q a h (c - C.price q a) := Iff.rfl

/-- A question that costs nothing, whatever the answer. -/
theorem wp_ask_free {q : S.Ask} {Q : S.Answer q → Heap S → ℕ → Prop} (hq : C.allowed q h)
    (hprice : ∀ a, C.price q a = 0) (hQ : ∀ a, Q a h c) : wp C (ask q) h c Q := by
  rw [wp_ask]
  refine ⟨hq, fun a => ?_⟩
  rw [hprice a]
  exact ⟨Nat.zero_le c, hQ a⟩

/-- A thread's program, which ends with nothing to spend. -/
def Verified (C : Contract S) (p : Prog S Unit) (h : Heap S) (c : ℕ) : Prop :=
  wp C p h c fun _ _ c' => c' = 0

end

/-! ## The system -/

structure State (S : Signature) (T : Type) where
  heap : Heap S
  /-- every object there has been -/
  born : List S.Obj
  /-- the calls of `free`, in order -/
  freed : List S.Obj
  threads : T → Prog S Unit
  /-- the messages that were posted and not yet delivered -/
  flight : List S.Msg
  owner : S.Obj → Option (T ⊕ S.Msg)

/-- Nothing has happened yet. -/
def start (threads : T → Prog S Unit) : State S T where
  heap _ := none
  born := []
  freed := []
  threads := threads
  flight := []
  owner _ := none

/-- What the environment decides about one operation. -/
inductive Choice (S : Signature)
  | plain
  | allocated (n : Option ℕ)
  | posted (ok : Bool)
  | answered (answer : ∀ q, S.Answer q)

inductive Action (S : Signature) (T A : Type)
  | run (t : T) (c : Choice S)
  | deliver (t : T) (m : S.Msg) (a : A)

section

variable [DecidableEq T]

def goto (s : State S T) (t : T) (p : Prog S Unit) : State S T :=
  { s with threads := Function.update s.threads t p }

/-- One operation of thread `t`. -/
def advance (s : State S T) (t : T) (c : Choice S) : Option (State S T) :=
  match s.threads t, c with
  | .load o k, .plain => (s.heap o).map fun v => goto s t (k v)
  | .store o v k, .plain =>
      if (s.heap o).isSome then
        some { goto s t k with heap := s.heap.set o (some v) }
      else none
  | .alloc _ _ k, .allocated none => some (goto s t (k none))
  | .alloc name v k, .allocated (some n) =>
      -- a name is used once, so that one that was freed is not the one allocated later
      if name n ∈ s.born then none
      else some { goto s t (k (some n)) with
        heap := s.heap.set (name n) (some (v n))
        born := name n :: s.born
        owner := Function.update s.owner (name n) (some (.inl t)) }
  | .free o k, .plain =>
      some { goto s t k with
        heap := s.heap.set o none
        freed := s.freed ++ [o]
        owner := Function.update s.owner o none }
  | .post m k, .posted ok =>
      if ok then
        some { goto s t (k true) with
          flight := s.flight ++ [m]
          owner := fun o => if o ∈ S.parcel m then some (.inr m) else s.owner o }
      else some (goto s t (k false))
  | .ask q k, .answered answer => some (goto s t (k (answer q)))
  | _, _ => none

/-- The thread has returned. -/
def is_idle : Prog S Unit → Bool
  | .ret _ => true
  | _ => false

/-- One step: an operation of a thread, or the delivery of a message to an idle one. -/
def step (handler : S.Msg → A → Prog S Unit) (serves : T → Bool) (s : State S T) :
    Action S T A → Option (State S T)
  | .run t c => advance s t c
  | .deliver t m a =>
      if serves t ∧ is_idle (s.threads t) ∧ m ∈ s.flight then
        some { goto s t (handler m a) with
          flight := s.flight.erase m
          -- what the thread had when it returned is nobody's now
          owner := fun o =>
            if o ∈ S.parcel m then some (.inl t)
            else if s.owner o = some (.inl t) then none else s.owner o }
      else none

/-- The step fails in no way that is left out of consideration. -/
def Considered (C : Contract S) (s : State S T) : Action S T A → Prop
  | .run _ (.allocated none) => C.alloc_fails
  | .run t (.posted false) => ∀ m k, s.threads t = .post m k → C.refused m
  | _ => True

/-- What a step costs because a call fails, or is answered unfavourably. -/
def loss (C : Contract S) (s : State S T) : Action S T A → ℕ
  | .run t c =>
      match s.threads t, c with
      | .alloc _ _ _, .allocated none => C.alloc_price
      | .post m _, .posted false => C.refusal m
      | .ask q _, .answered answer => C.price q (answer q)
      | _, _ => 0
  | .deliver _ _ _ => 0

/-- The worth of the messages in flight. -/
def in_flight (C : Contract S) (s : State S T) : ℕ := (s.flight.map C.worth).sum

/-- The objects the next operation of a program names. -/
def touched : Prog S R → List S.Obj
  | .load o _ => [o]
  | .store o _ _ => [o]
  | .free o _ => [o]
  | .post m _ => S.parcel m
  | _ => []

/-! ## Pieces of the heap -/

/-- What `x` has. -/
def piece {X : Type} [DecidableEq X] (heap : Heap S) (owner : S.Obj → Option X) (x : X) : Heap S :=
  fun o => if owner o = some x then heap o else none

/-- Every object is touched by its owner only and freed once, no message is in flight twice, and
each carries what its handler relies on. -/
structure Safe (C : Contract S) (s : State S T) : Prop where
  no_fault : ¬ C.faults → ∀ t, s.threads t ≠ .fault
  asks_allowed : ∀ t q k, s.threads t = .ask q k → C.allowed q (piece s.heap s.owner (.inl t))
  touches_own : ∀ t, ∀ o ∈ touched (s.threads t), s.owner o = some (.inl t)
  alive : ∀ o x, s.owner o = some x → s.heap o ≠ none ∧ o ∉ s.freed
  in_flight : ∀ m ∈ s.flight, ∀ o ∈ S.parcel m, s.owner o = some (.inr m)
  flight_good : ∀ m ∈ s.flight, C.good m (piece s.heap s.owner (.inr m))
  flight_once : s.flight.Nodup
  freed_once : s.freed.Nodup

end

section

variable {X : Type} [DecidableEq X]

theorem piece_ne_none {heap : Heap S} {owner : S.Obj → Option X} {x : X} {o : S.Obj}
    (h : piece heap owner x o ≠ none) : owner o = some x := by
  by_contra hne
  exact h (if_neg hne)

theorem piece_eq_some {heap : Heap S} {owner : S.Obj → Option X} {x : X} {o : S.Obj}
    {v : S.Val o} (h : piece heap owner x o = some v) : owner o = some x ∧ heap o = some v := by
  have howner := piece_ne_none (h.trans_ne (by simp))
  rw [piece, if_pos howner] at h
  exact ⟨howner, h⟩

/-- One object is written, and goes to `w` or to nobody. -/
theorem piece_update (heap : Heap S) (owner : S.Obj → Option X) (o : S.Obj)
    (v : Option (S.Val o)) (w : Option X) (x : X) :
    piece (heap.set o v) (Function.update owner o w) x
      = (piece heap owner x).set o (if w = some x then v else none) := by
  funext o'
  by_cases ho : o' = o
  · subst ho
    rw [piece, Function.update_self, Heap.set_self, Heap.set_self]
  · rw [piece, Function.update_of_ne ho, Heap.set_of_ne _ ho, Heap.set_of_ne _ ho, piece]

/-- A write to an object that is another's. -/
theorem piece_update_other {heap : Heap S} {owner : S.Obj → Option X} {o : S.Obj} {x : X}
    (hold : owner o ≠ some x) {w : Option X} (hnew : w ≠ some x) (v : Option (S.Val o)) :
    piece (heap.set o v) (Function.update owner o w) x = piece heap owner x := by
  rw [piece_update, if_neg hnew, Heap.set_eq_self (if_neg hold)]

variable {heap : Heap S} {owner : S.Obj → Option X} {l : List S.Obj} {x y : X}

/-- The objects of `l` go from `y` to `x`, who had nothing. -/
theorem piece_taken (hl : ∀ o ∈ l, owner o = some y) (hx : ∀ o, owner o ≠ some x) :
    piece heap (fun o => if o ∈ l then some x else owner o) x = (piece heap owner y).restrict l := by
  funext o
  by_cases ho : o ∈ l
  · rw [piece, if_pos ho, if_pos rfl, Heap.restrict, if_pos ho, piece, if_pos (hl o ho)]
  · rw [piece, if_neg ho, if_neg (hx o), Heap.restrict, if_neg ho]

theorem piece_given (hxy : x ≠ y) :
    piece heap (fun o => if o ∈ l then some x else owner o) y = (piece heap owner y).without l := by
  funext o
  by_cases ho : o ∈ l
  · rw [piece, if_pos ho, if_neg (fun h => hxy (Option.some.inj h)), Heap.without, if_pos ho]
  · rw [piece, if_neg ho, Heap.without, if_neg ho, piece]

theorem piece_kept (hl : ∀ o ∈ l, owner o = some y) {z : X} (hzx : z ≠ x) (hzy : z ≠ y) :
    piece heap (fun o => if o ∈ l then some x else owner o) z = piece heap owner z := by
  funext o
  by_cases ho : o ∈ l
  · have hold : owner o ≠ some z := by
      rw [hl o ho]
      exact fun h => hzy (Option.some.inj h).symm
    rw [piece, if_pos ho, if_neg (fun h => hzx (Option.some.inj h).symm), piece, if_neg hold]
  · rw [piece, if_neg ho, piece]

theorem piece_dropped {z : X} (hzy : z ≠ y) :
    piece heap (fun o => if owner o = some y then none else owner o) z = piece heap owner z := by
  funext o
  by_cases ho : owner o = some y
  · have hz : owner o ≠ some z := by
      rw [ho]
      exact fun h => hzy (Option.some.inj h).symm
    rw [piece, if_pos ho, if_neg (by simp), piece, if_neg hz]
  · rw [piece, if_neg ho, piece]

theorem piece_restrict (hl : ∀ o, owner o = some y → o ∈ l) :
    (piece heap owner y).restrict l = piece heap owner y := by
  funext o
  by_cases ho : o ∈ l
  · rw [Heap.restrict, if_pos ho]
  · rw [Heap.restrict, if_neg ho, piece, if_neg (fun h => ho (hl o h))]

end

/-! ## Soundness -/

section

variable [DecidableEq T] (C : Contract S)

/-- Every thread is verified for what it has, and every message carries what its handler
relies on. -/
structure Valid (credit : T → ℕ) (s : State S T) : Prop where
  owned_alive : ∀ o x, s.owner o = some x → s.heap o ≠ none
  heap_born : ∀ o, s.heap o ≠ none → o ∈ s.born
  freed_born : ∀ o ∈ s.freed, o ∈ s.born ∧ s.heap o = none
  freed_once : s.freed.Nodup
  threads : ∀ t, Verified C (s.threads t) (piece s.heap s.owner (.inl t)) (credit t)
  carried : ∀ o m, s.owner o = some (.inr m) ↔ m ∈ s.flight ∧ o ∈ S.parcel m
  flight_once : s.flight.Nodup
  flight_good : ∀ m ∈ s.flight, C.good m (piece s.heap s.owner (.inr m))

variable {C} {credit : T → ℕ}

theorem Valid.not_freed {s : State S T} (h : Valid C credit s) {o : S.Obj} (ho : s.heap o ≠ none) :
    o ∉ s.freed := fun hfreed => ho (h.freed_born o hfreed).2

theorem Valid.safe {s : State S T} (h : Valid C credit s) : Safe C s where
  no_fault := by
    intro hfaults t hfault
    have hthread := h.threads t
    rw [hfault] at hthread
    exact hfaults hthread
  asks_allowed := by
    intro t q k hask
    have hthread := h.threads t
    rw [hask] at hthread
    exact hthread.1
  touches_own := by
    intro t o ho
    have hthread := h.threads t
    cases hp : s.threads t with
    | load o' k =>
        rw [hp, touched, List.mem_singleton] at ho
        rw [hp, Verified, wp] at hthread
        obtain ⟨v, hv, -⟩ := hthread
        rw [ho]
        exact (piece_eq_some hv).1
    | store o' v k =>
        rw [hp, touched, List.mem_singleton] at ho
        rw [hp, Verified, wp] at hthread
        rw [ho]
        exact piece_ne_none hthread.1
    | free o' k =>
        rw [hp, touched, List.mem_singleton] at ho
        rw [hp, Verified, wp] at hthread
        rw [ho]
        exact piece_ne_none hthread.1
    | post m k =>
        rw [hp, touched] at ho
        rw [hp, Verified, wp] at hthread
        exact piece_ne_none (hthread.2.1 o ho)
    | _ =>
        rw [hp] at ho
        exact absurd ho (by simp [touched])
  alive := fun o x ho => ⟨h.owned_alive o x ho, h.not_freed (h.owned_alive o x ho)⟩
  in_flight := fun m hm o ho => (h.carried o m).mpr ⟨hm, ho⟩
  flight_good := h.flight_good
  flight_once := h.flight_once
  freed_once := h.freed_once

theorem start_valid {threads : T → Prog S Unit}
    (h : ∀ t, Verified C (threads t) (fun _ => none) (credit t)) :
    Valid C credit (start threads) where
  owned_alive := fun _ _ howner => absurd howner (by simp [start])
  heap_born := fun _ hne => absurd rfl hne
  freed_born := fun _ hfreed => absurd hfreed List.not_mem_nil
  freed_once := List.nodup_nil
  threads := h
  carried := by simp [start]
  flight_once := List.nodup_nil
  flight_good := fun _ hm => absurd hm List.not_mem_nil

/-- A step that leaves the heap alone. -/
theorem Valid.goto {s : State S T} (h : Valid C credit s) {t : T} {p : Prog S Unit} {c : ℕ}
    (hp : Verified C p (piece s.heap s.owner (.inl t)) c) :
    Valid C (Function.update credit t c) (goto s t p) where
  owned_alive := h.owned_alive
  heap_born := h.heap_born
  freed_born := h.freed_born
  freed_once := h.freed_once
  threads := by
    intro u
    by_cases hu : u = t
    · subst hu
      dsimp only [Ownership.goto]
      rw [Function.update_self, Function.update_self]
      exact hp
    · dsimp only [Ownership.goto]
      rw [Function.update_of_ne hu, Function.update_of_ne hu]
      exact h.threads u
  carried := h.carried
  flight_once := h.flight_once
  flight_good := h.flight_good

/-- A thread writes, frees or makes one object, and the others notice nothing. -/
theorem Valid.write {s : State S T} (h : Valid C credit s) {t : T} {p : Prog S Unit} {c : ℕ}
    {o : S.Obj} {v : Option (S.Val o)} {w : Option (T ⊕ S.Msg)} {born freed : List S.Obj}
    (hmine : s.owner o = some (.inl t) ∨ s.owner o = none) (hw : w = some (.inl t) ∧ v ≠ none ∨ w = none)
    (hborn : s.born ⊆ born) (ho : o ∈ born) (hfresh : o ∉ s.freed)
    (hfreed : ∀ o' ∈ freed, o' ∈ s.freed ∨ o' = o ∧ v = none) (hnodup : freed.Nodup)
    (hp : Verified C p
      ((piece s.heap s.owner (.inl t)).set o (if w = some (.inl t) then v else none)) c) :
    Valid C (Function.update credit t c) { Ownership.goto s t p with
      heap := s.heap.set o v
      born := born
      freed := freed
      owner := Function.update s.owner o w } where
  owned_alive := by
    intro o' x hx
    dsimp only at hx ⊢
    by_cases ho : o' = o
    · subst ho
      rw [Function.update_self] at hx
      rw [Heap.set_self]
      rcases hw with ⟨-, hv⟩ | hw
      · exact hv
      · rw [hw] at hx
        exact absurd hx (by simp)
    · rw [Function.update_of_ne ho] at hx
      rw [Heap.set_of_ne _ ho]
      exact h.owned_alive o' x hx
  heap_born := by
    intro o' ho'
    dsimp only at ho' ⊢
    by_cases heq : o' = o
    · exact heq ▸ ho
    · exact hborn (h.heap_born o' (by rwa [Heap.set_of_ne _ heq] at ho'))
  freed_born := by
    intro o' ho'
    rcases hfreed o' ho' with hold | ⟨rfl, rfl⟩
    · obtain ⟨hb, hnone⟩ := h.freed_born o' hold
      refine ⟨hborn hb, ?_⟩
      dsimp only
      rw [Heap.set_of_ne _ (ne_of_mem_of_not_mem hold hfresh), hnone]
    · -- an object that is freed just now
      exact ⟨ho, Heap.set_self _ _ _⟩
  freed_once := hnodup
  threads := by
    intro u
    by_cases hu : u = t
    · subst hu
      dsimp only [Ownership.goto]
      rw [Function.update_self, Function.update_self, piece_update]
      exact hp
    · -- another thread had no part of `o` before and has none now
      have hold : s.owner o ≠ some (.inl u) := by
        rcases hmine with hmine | hmine <;> rw [hmine]
        · exact fun heq => hu (Sum.inl.inj (Option.some.inj heq)).symm
        · simp
      have hnew : w ≠ some (.inl u) := by
        rcases hw with ⟨hw, -⟩ | hw <;> rw [hw]
        · exact fun heq => hu (Sum.inl.inj (Option.some.inj heq)).symm
        · simp
      dsimp only [Ownership.goto]
      rw [Function.update_of_ne hu, Function.update_of_ne hu, piece_update_other hold hnew]
      exact h.threads u
  carried := by
    intro o' m
    change Function.update s.owner o w o' = some (.inr m) ↔ m ∈ s.flight ∧ o' ∈ S.parcel m
    rw [← h.carried o' m]
    by_cases ho : o' = o
    · -- `o` is in no message on either side
      subst ho
      rw [Function.update_self]
      apply iff_of_false
      · rcases hw with ⟨hw, -⟩ | hw <;> rw [hw] <;> simp
      · rcases hmine with hmine | hmine <;> rw [hmine] <;> simp
    · rw [Function.update_of_ne ho]
  flight_once := h.flight_once
  flight_good := by
    intro m hm
    have hold : s.owner o ≠ some (.inr m) := by
      rcases hmine with hmine | hmine <;> rw [hmine] <;> simp
    have hnew : w ≠ some (.inr m) := by
      rcases hw with ⟨hw, -⟩ | hw <;> rw [hw] <;> simp
    dsimp only
    rw [piece_update_other hold hnew]
    exact h.flight_good m hm

theorem Valid.store {s : State S T} (h : Valid C credit s) {t : T} {o : S.Obj} {v : S.Val o}
    {p : Prog S Unit} {c : ℕ} (hmine : s.owner o = some (.inl t))
    (hp : Verified C p ((piece s.heap s.owner (.inl t)).set o (some v)) c) :
    Valid C (Function.update credit t c)
      { Ownership.goto s t p with heap := s.heap.set o (some v) } := by
  have halive := h.owned_alive o _ hmine
  have hvalid := h.write (Or.inl hmine) (Or.inl ⟨rfl, Option.some_ne_none v⟩)
    (List.Subset.refl _) (h.heap_born o halive) (h.not_freed halive) (fun _ => Or.inl)
    h.freed_once (by rw [if_pos rfl]; exact hp)
  rwa [← hmine, Function.update_eq_self o] at hvalid

theorem Valid.alloc {s : State S T} (h : Valid C credit s) {t : T} {o : S.Obj} {v : S.Val o}
    {p : Prog S Unit} {c : ℕ} (hnew : o ∉ s.born)
    (hp : piece s.heap s.owner (.inl t) o = none →
      Verified C p ((piece s.heap s.owner (.inl t)).set o (some v)) c) :
    Valid C (Function.update credit t c) { Ownership.goto s t p with
      heap := s.heap.set o (some v)
      born := o :: s.born
      owner := Function.update s.owner o (some (.inl t)) } := by
  -- a name that was never used is of nothing alive, and so of nothing owned
  have hnone : s.heap o = none := by
    by_contra hne
    exact hnew (h.heap_born o hne)
  have hnobody : s.owner o = none := by
    by_contra hne
    obtain ⟨x, hx⟩ := Option.ne_none_iff_exists'.mp hne
    exact h.owned_alive o x hx hnone
  have hk := hp (if_neg (by rw [hnobody]; simp))
  exact h.write (Or.inr hnobody) (Or.inl ⟨rfl, Option.some_ne_none v⟩)
    (List.subset_cons_self o _) List.mem_cons_self (fun hf => hnew (h.freed_born o hf).1)
    (fun _ => Or.inl) h.freed_once (by rw [if_pos rfl]; exact hk)

theorem Valid.free {s : State S T} (h : Valid C credit s) {t : T} {o : S.Obj}
    {p : Prog S Unit} {c : ℕ} (hmine : s.owner o = some (.inl t))
    (hp : Verified C p ((piece s.heap s.owner (.inl t)).set o none) c) :
    Valid C (Function.update credit t c) { Ownership.goto s t p with
      heap := s.heap.set o none
      freed := s.freed ++ [o]
      owner := Function.update s.owner o none } := by
  have halive := h.owned_alive o _ hmine
  have hfreed : ∀ o' ∈ s.freed ++ [o], o' ∈ s.freed ∨ o' = o ∧ none = (none : Option (S.Val o)) := by
    intro o' ho'
    rw [List.mem_append, List.mem_singleton] at ho'
    exact ho'.imp_right fun heq => ⟨heq, rfl⟩
  -- what is freed now was alive, so it was not freed before
  have hnodup : (s.freed ++ [o]).Nodup :=
    List.nodup_append.mpr ⟨h.freed_once, List.nodup_singleton o, fun a ha b hb hab => by
      rw [List.mem_singleton] at hb
      exact h.not_freed halive (hb ▸ hab ▸ ha)⟩
  exact h.write (Or.inl hmine) (Or.inr rfl) (List.Subset.refl _) (h.heap_born o halive)
    (h.not_freed halive) hfreed hnodup (by rw [if_neg (by simp)]; exact hp)

/-- What an idle thread has is dropped. -/
theorem Valid.drop {s : State S T} (h : Valid C credit s) {t : T} (hidle : is_idle (s.threads t)) :
    Valid C credit { s with owner := fun o => if s.owner o = some (.inl t) then none else s.owner o } where
  owned_alive := by
    intro o x ho
    dsimp only at ho
    split_ifs at ho
    exact h.owned_alive o x ho
  heap_born := h.heap_born
  freed_born := h.freed_born
  freed_once := h.freed_once
  threads := by
    intro u
    dsimp only
    by_cases hu : u = t
    · -- a program that has returned needs nothing
      subst hu
      have hthread := h.threads u
      cases hp : s.threads u with
      | ret r =>
          rw [hp] at hthread
          exact hthread
      | _ => rw [hp] at hidle; exact absurd hidle (by simp [is_idle])
    · rw [piece_dropped (by simpa using hu)]
      exact h.threads u
  carried := by
    intro o m
    rw [← h.carried o m]
    dsimp only
    split_ifs with ho
    · rw [ho]
      simp
    · rfl
  flight_once := h.flight_once
  flight_good := by
    intro m hm
    rw [piece_dropped (by simp)]
    exact h.flight_good m hm

/-- A message takes its parcel along. -/
theorem Valid.post {s : State S T} (h : Valid C credit s) {t : T} {m : S.Msg} {p : Prog S Unit}
    {c : ℕ}
    (hparcel : ∀ o ∈ S.parcel m, piece s.heap s.owner (.inl t) o ≠ none)
    (hgood : C.good m ((piece s.heap s.owner (.inl t)).restrict (S.parcel m)))
    (hp : Verified C p ((piece s.heap s.owner (.inl t)).without (S.parcel m)) c) :
    Valid C (Function.update credit t c) { Ownership.goto s t p with
      flight := s.flight ++ [m]
      owner := fun o => if o ∈ S.parcel m then some (.inr m) else s.owner o } := by
  have hmine : ∀ o ∈ S.parcel m, s.owner o = some (.inl t) := fun o ho =>
    piece_ne_none (hparcel o ho)
  -- a second such message would have the parcel that is the thread's
  have hnew : m ∉ s.flight := by
    intro hm
    obtain ⟨o, ho⟩ := List.exists_mem_of_ne_nil _ (S.parcel_ne_nil m)
    have hm' := (h.carried o m).mpr ⟨hm, ho⟩
    rw [hmine o ho] at hm'
    exact absurd hm' (by simp)
  have hnobody : ∀ o, s.owner o ≠ some (.inr m) := fun o ho => hnew ((h.carried o m).mp ho).1
  refine ⟨?_, h.heap_born, h.freed_born, h.freed_once, ?_, ?_, ?_, ?_⟩
  · intro o x ho
    dsimp only at ho ⊢
    split_ifs at ho with hl
    · exact h.owned_alive o _ (hmine o hl)
    · exact h.owned_alive o x ho
  · intro u
    dsimp only [Ownership.goto]
    by_cases hu : u = t
    · subst hu
      rw [Function.update_self, Function.update_self, piece_given (by simp)]
      exact hp
    · rw [Function.update_of_ne hu, Function.update_of_ne hu,
        piece_kept hmine (by simp) (by simpa using hu)]
      exact h.threads u
  · intro o m'
    dsimp only
    rw [List.mem_append, List.mem_singleton]
    split_ifs with hl
    · constructor
      · intro heq
        obtain rfl : m = m' := by simpa using heq
        exact ⟨Or.inr rfl, hl⟩
      · rintro ⟨hm' | rfl, hl'⟩
        · have howner := (h.carried o m').mpr ⟨hm', hl'⟩
          rw [hmine o hl] at howner
          exact absurd howner (by simp)
        · rfl
    · rw [h.carried o m']
      constructor
      · exact fun ⟨hm', hl'⟩ => ⟨Or.inl hm', hl'⟩
      · rintro ⟨hm' | rfl, hl'⟩
        · exact ⟨hm', hl'⟩
        · exact absurd hl' hl
  · exact List.nodup_append.mpr ⟨h.flight_once, List.nodup_singleton m, fun a ha b hb hab => by
      rw [List.mem_singleton] at hb
      exact hnew (hb ▸ hab ▸ ha)⟩
  · intro m' hm'
    dsimp only at hm' ⊢
    rw [List.mem_append, List.mem_singleton] at hm'
    by_cases heq : m' = m
    · -- what the message has is what the thread had of the parcel
      subst heq
      rw [piece_taken hmine hnobody]
      exact hgood
    · rw [piece_kept hmine (by simpa using heq) (by simp)]
      exact h.flight_good m' (hm'.resolve_right heq)

/-- A message is delivered, and its parcel with it. -/
theorem Valid.deliver {s : State S T} (h : Valid C credit s) {t : T} {m : S.Msg}
    {p : Prog S Unit} {c : ℕ} (hm : m ∈ s.flight) (hnothing : ∀ o, s.owner o ≠ some (.inl t))
    (hp : ∀ h', C.good m h' → Verified C p h' c) :
    Valid C (Function.update credit t c) { Ownership.goto s t p with
      flight := s.flight.erase m
      owner := fun o => if o ∈ S.parcel m then some (.inl t) else s.owner o } := by
  have hcarried : ∀ o ∈ S.parcel m, s.owner o = some (.inr m) := fun o ho =>
    (h.carried o m).mpr ⟨hm, ho⟩
  refine ⟨?_, h.heap_born, h.freed_born, h.freed_once, ?_, ?_, h.flight_once.erase m, ?_⟩
  · intro o x ho
    dsimp only at ho ⊢
    split_ifs at ho with hl
    · exact h.owned_alive o _ (hcarried o hl)
    · exact h.owned_alive o x ho
  · intro u
    dsimp only [Ownership.goto]
    by_cases hu : u = t
    · -- the thread had nothing, so it has the parcel and no more
      subst hu
      rw [Function.update_self, Function.update_self, piece_taken hcarried hnothing,
        piece_restrict fun o ho => ((h.carried o m).mp ho).2]
      exact hp _ (h.flight_good m hm)
    · rw [Function.update_of_ne hu, Function.update_of_ne hu,
        piece_kept hcarried (by simpa using hu) (by simp)]
      exact h.threads u
  · intro o m'
    dsimp only
    rw [h.flight_once.mem_erase_iff]
    split_ifs with hl
    · refine iff_of_false (by simp) ?_
      rintro ⟨⟨hne, hm'⟩, hl'⟩
      have howner := (h.carried o m').mpr ⟨hm', hl'⟩
      rw [hcarried o hl] at howner
      exact hne (by simpa using howner.symm)
    · rw [h.carried o m']
      constructor
      · exact fun ⟨hm', hl'⟩ => ⟨⟨fun heq => hl (heq ▸ hl'), hm'⟩, hl'⟩
      · exact fun ⟨⟨_, hm'⟩, hl'⟩ => ⟨hm', hl'⟩
  · intro m' hm'
    dsimp only at hm' ⊢
    obtain ⟨hne, hm'⟩ := (h.flight_once.mem_erase_iff).mp hm'
    rw [piece_kept hcarried (by simp) (by simpa using hne)]
    exact h.flight_good m' hm'

end

/-! ## Runs -/

section

variable [DecidableEq T] {C : Contract S} {credit : T → ℕ} {handler : S.Msg → A → Prog S Unit}
  {serves : T → Bool}

/-- What a thread has to spend after an operation. -/
structure Spent (C : Contract S) (credit : T → ℕ) (s s' : State S T) (t : T) (price k : ℕ) :
    Prop where
  valid : Valid C (Function.update credit t k) s'
  balance : k + in_flight C s' + price = credit t + in_flight C s

theorem Spent.of_flight {s s' : State S T} {t : T} {price k : ℕ}
    (hvalid : Valid C (Function.update credit t k) s') (hflight : s'.flight = s.flight)
    (hprice : k + price = credit t) : Spent C credit s s' t price k where
  valid := hvalid
  balance := by
    rw [in_flight, in_flight, hflight]
    omega

/-- An operation of one thread keeps every thread verified. -/
theorem Valid.advance {s s' : State S T} {t : T} {c : Choice S} (h : Valid C credit s)
    (hok : Considered C s (.run t c : Action S T A)) (hs : advance s t c = some s') :
    ∃ k, Spent C credit s s' t (loss C s (.run t c : Action S T A)) k := by
  have hthread := h.threads t
  unfold Ownership.advance at hs
  split at hs
  next o k hp =>
    have hloss : loss C s (.run t .plain : Action S T A) = 0 := by simp [loss, hp]
    rw [hp] at hthread
    obtain ⟨v, hv, hk⟩ := hthread
    rw [(piece_eq_some hv).2, Option.map_some, Option.some.injEq] at hs
    exact ⟨credit t, .of_flight (hs ▸ h.goto hk) (hs ▸ rfl) (by rw [hloss, Nat.add_zero])⟩
  next o v k hp =>
    have hloss : loss C s (.run t .plain : Action S T A) = 0 := by simp [loss, hp]
    rw [hp] at hthread
    obtain ⟨ho, hk⟩ := hthread
    have hmine := piece_ne_none ho
    have halive := h.owned_alive o _ hmine
    rw [if_pos (Option.isSome_iff_ne_none.mpr halive), Option.some.injEq] at hs
    exact ⟨credit t, .of_flight (hs ▸ h.store hmine hk) (hs ▸ rfl) (by rw [hloss, Nat.add_zero])⟩
  next name v k hp =>
    have hloss : loss C s (.run t (.allocated none) : Action S T A) = C.alloc_price := by
      simp [loss, hp]
    rw [hp] at hthread
    obtain ⟨hprice, hk⟩ := hthread.1 hok
    rw [Option.some.injEq] at hs
    exact ⟨_, .of_flight (hs ▸ h.goto hk) (hs ▸ rfl) (by omega)⟩
  next name v k n hp =>
    have hloss : loss C s (.run t (.allocated (some n)) : Action S T A) = 0 := by simp [loss, hp]
    rw [hp] at hthread
    split_ifs at hs with hborn
    rw [Option.some.injEq] at hs
    have hvalid := h.alloc hborn (hthread.2 n)
    exact ⟨credit t, .of_flight (hs ▸ hvalid) (hs ▸ rfl) (by rw [hloss, Nat.add_zero])⟩
  next o k hp =>
    have hloss : loss C s (.run t .plain : Action S T A) = 0 := by simp [loss, hp]
    rw [hp] at hthread
    rw [Option.some.injEq] at hs
    obtain ⟨ho, hk⟩ := hthread
    have hvalid := h.free (piece_ne_none ho) hk
    exact ⟨credit t, .of_flight (hs ▸ hvalid) (hs ▸ rfl) (by rw [hloss, Nat.add_zero])⟩
  next m k ok hp =>
    rw [hp] at hthread
    obtain ⟨hfalse, hparcel, hgood, hworth, htrue⟩ := hthread
    cases ok with
    | true =>
        have hloss : loss C s (.run t (.posted true) : Action S T A) = 0 := by simp [loss, hp]
        rw [if_pos rfl, Option.some.injEq] at hs
        refine ⟨credit t - C.worth m, hs ▸ h.post hparcel hgood htrue, ?_⟩
        -- what the thread has spent is in flight
        have hmore : in_flight C s' = in_flight C s + C.worth m := by
          rw [← hs, in_flight, in_flight]
          simp
        omega
    | false =>
        have hloss : loss C s (.run t (.posted false) : Action S T A) = C.refusal m := by
          simp [loss, hp]
        rw [if_neg Bool.false_ne_true, Option.some.injEq] at hs
        obtain ⟨hprice, hk⟩ := hfalse (hok m k hp)
        exact ⟨_, .of_flight (hs ▸ h.goto hk) (hs ▸ rfl) (by omega)⟩
  next q k answer hp =>
    have hloss : loss C s (.run t (.answered answer) : Action S T A) = C.price q (answer q) := by
      simp [loss, hp]
    rw [hp] at hthread
    obtain ⟨hprice, hk⟩ := hthread.2 (answer q)
    rw [Option.some.injEq] at hs
    exact ⟨_, .of_flight (hs ▸ h.goto hk) (hs ▸ rfl) (by omega)⟩
  next => exact absurd hs (by simp)

/-- A message is delivered to a thread that has returned. -/
theorem Valid.take {s : State S T} {t : T} {m : S.Msg} {a : A} (h : Valid C credit s)
    (hhandler : ∀ h, C.good m h → Verified C (handler m a) h (C.worth m))
    (hidle : is_idle (s.threads t)) (hm : m ∈ s.flight) :
    Spent C credit s { Ownership.goto s t (handler m a) with
      flight := s.flight.erase m
      owner := fun o =>
        if o ∈ S.parcel m then some (.inl t)
        else if s.owner o = some (.inl t) then none else s.owner o } t 0 (C.worth m) where
  valid := by
    refine (h.drop hidle).deliver hm (fun o => ?_) hhandler
    dsimp only
    split_ifs with ho
    · simp
    · exact ho
  balance := by
    have hthread := h.threads t
    have hnothing : credit t = 0 := by
      cases hp : s.threads t with
      | ret r =>
          rw [hp] at hthread
          exact hthread
      | _ => rw [hp] at hidle; exact absurd hidle (by simp [is_idle])
    rw [hnothing, in_flight, in_flight, Nat.zero_add, Nat.add_zero]
    exact List.sum_map_erase C.worth hm

variable [Fintype T]

/-- Every thread is verified for some credits, and these, the worth of the messages and what is
lost add up. -/
def Accounted (C : Contract S) (credits : ℕ) (s : State S T) (lost : ℕ) : Prop :=
  ∃ credit, Valid C credit s ∧ ∑ t, credit t + in_flight C s + lost = credits

/-- **One step.** -/
theorem step_accounted {credits : ℕ}
    (hhandler : ∀ m a h, C.good m h → Verified C (handler m a) h (C.worth m))
    (s : State S T) (a : Action S T A) (s' : State S T) (lost : ℕ) (h : Accounted C credits s lost)
    (hok : Considered C s a) (hs : step handler serves s a = some s') :
    Accounted C credits s' (lost + loss C s a) := by
  obtain ⟨credit, hvalid, hcredits⟩ := h
  have hspent : ∀ (t : T) (k : ℕ), Spent C credit s s' t (loss C s a) k →
      Accounted C credits s' (lost + loss C s a) := by
    intro t k hk
    have hsum := sum_update (fun c => c) credit t k
    have hbalance := hk.balance
    exact ⟨_, hk.valid, by omega⟩
  cases a with
  | run t c =>
      obtain ⟨k, hk⟩ := hvalid.advance hok hs
      exact hspent t k hk
  | deliver t m a =>
      rw [step] at hs
      split_ifs at hs with hc
      rw [Option.some.injEq] at hs
      exact hspent t _ (hs ▸ hvalid.take (hhandler m a) hc.2.1 hc.2.2)

omit [DecidableEq T] [Fintype T] in
theorem considered_of_all (halloc : C.alloc_fails) (hrefused : ∀ m, C.refused m) (s : State S T)
    (a : Action S T A) : Considered C s a := by
  unfold Considered
  split
  · exact halloc
  · exact fun m _ _ => hrefused m
  · trivial

/-- **The account of a run.** Where each thread starts verified for what it has, and the handler
of each message is verified for what the message carries, nothing is lost but by the calls that
the contract prices. -/
theorem balanced_of_run (hhandler : ∀ m a h, C.good m h → Verified C (handler m a) h (C.worth m))
    {s s' : State S T} (h : Valid C credit s) {as : List (Action S T A)}
    (hok : Meets (step handler serves) (Considered C) s as)
    (hs : exec (step handler serves) s as = some s') :
    Accounted C (∑ t, credit t + in_flight C s) s'
      (total (step handler serves) (loss C) s as) := by
  have hrun := exec_accumulates (step_accounted hhandler) as s s' 0 ⟨credit, h, rfl⟩ hok hs
  rwa [Nat.zero_add] at hrun

/-- **Safety of a run.** No thread ever touches what is not its own. -/
theorem safe_of_run (hhandler : ∀ m a h, C.good m h → Verified C (handler m a) h (C.worth m))
    {s s' : State S T} (h : Valid C credit s) {as : List (Action S T A)}
    (hok : Meets (step handler serves) (Considered C) s as)
    (hs : exec (step handler serves) s as = some s') : Safe C s' := by
  obtain ⟨_, hvalid, -⟩ := balanced_of_run hhandler h hok hs
  exact hvalid.safe

end

end W32HttpServer.Lib.Ownership
