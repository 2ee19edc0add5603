/-
Code that opens and closes things, in which every call may fail.

The calls are numbered as they are made, and `answers` says for each number and each function
what that call returns: a name for what was opened, or a failure. So a statement for every
`answers` is one for every combination of failures. The ledger says what was opened and closed,
and the notes are what the code has written down on its way, in order.

`Leaves fails held f Q` accounts for a piece of code that is run while `held` is open, and where
no function has a failing call but those that `fails` admits: it closes nothing that is not open,
and what it returns and leaves open are as `Q` says. With `fails` a variable, a conclusion
`fails c` in `Q` says that what was returned is due to a failed call of `c`. The rules take the
code apart as it is written, so a function is accounted for once, and its callers use that.
-/
import W32HttpServer.Lib.Ledger

set_option autoImplicit false

namespace W32HttpServer.Lib.Account

open W32HttpServer.Lib.Ledger

/-! ## The code -/

/-- What the system answers to the calls of the functions `N`, and what the code has done so
far. -/
structure Books (N H X : Type) where
  answers : N → ℕ → Option ℕ
  calls : ℕ
  ledger : List (Entry H)
  notes : List X

/-- Code that keeps books: every call it makes is answered in its turn, and what it opens, closes
and says is written down. -/
abbrev Accounted (N H X : Type) := StateM (Books N H X)

variable {N H X A B : Type}

/-- One line of the ledger. -/
def enter (e : Entry H) : Accounted N H X Unit := fun b =>
  ((), { b with ledger := b.ledger ++ [e] })

/-- What is done without a result that matters, such as a line in a log. -/
def note (x : X) : Accounted N H X Unit := fun b => ((), { b with notes := b.notes ++ [x] })

/-- A call that opens something, unless it fails. -/
def acquire (call : N) (opens : ℕ → H) : Accounted N H X (Option ℕ) := fun b =>
  match b.answers call b.calls with
  | none => (none, { b with calls := b.calls + 1 })
  | some n => (some n, { b with
      calls := b.calls + 1
      ledger := b.ledger ++ [.opened (opens n)] })

/-- A call that opens nothing, and whether it succeeds. -/
def attempt (call : N) : Accounted N H X Bool := fun b =>
  ((b.answers call b.calls).isSome, { b with calls := b.calls + 1 })

/-- Closing needs no answer. Whether `h` is open is asked by `Leaves`, not here. -/
def release (h : H) : Accounted N H X Unit := enter (.closed h)

/-- Nothing has been called yet. -/
def Books.start (answers : N → ℕ → Option ℕ) : Books N H X := ⟨answers, 0, [], []⟩

/-! ## Accounts -/

/-- Every call that fails is one of a function that may. -/
def Admits (fails : N → Prop) (b : Books N H X) : Prop :=
  ∀ call k, b.answers call k = none → fails call

variable [DecidableEq H]

/-- The code `f`, run with `held` open, closes nothing that is not open, and returns and leaves
open what `Q` says. That `held` may be anything makes the account of a function hold wherever it
is called: what its caller has open is none of its business, and stays. The last part keeps the
answers for the code behind it. -/
def Leaves (fails : N → Prop) (held : Multiset H) (f : Accounted N H X A)
    (Q : A → Multiset H → Prop) : Prop :=
  ∀ b, Admits fails b → ∃ held', Moves held b.ledger held' (f b).2.ledger ∧ Q (f b).1 held'
    ∧ (f b).2.answers = b.answers

variable {fails : N → Prop} {held : Multiset H} {Q Q' : A → Multiset H → Prop}

/-- The rule of consequence. -/
theorem Leaves.mono {f : Accounted N H X A} (h : Leaves fails held f Q)
    (hQ : ∀ a held', Q a held' → Q' a held') : Leaves fails held f Q' := by
  intro b hb
  obtain ⟨held', hmoves, hq, hsame⟩ := h b hb
  exact ⟨held', hmoves, hQ _ _ hq, hsame⟩

/-- Nothing is called. -/
theorem leaves_pure {a : A} (hQ : Q a held) :
    Leaves fails held (pure a : Accounted N H X A) Q :=
  fun b _ => ⟨held, Moves.refl held b.ledger, hQ, rfl⟩

/-- One piece of code behind the other: the second starts with what the first leaves open. -/
theorem leaves_bind {f : Accounted N H X B} {g : B → Accounted N H X A}
    (h : Leaves fails held f fun r held' => Leaves fails held' (g r) Q) :
    Leaves fails held (f >>= g) Q := by
  intro b hb
  obtain ⟨held₁, hmoves₁, hg, hsame₁⟩ := h b hb
  -- the system answers the second as it does the first
  have hb₁ : Admits fails (f b).2 := fun call k hfail => hb call k (by rwa [hsame₁] at hfail)
  obtain ⟨held₂, hmoves₂, hq, hsame₂⟩ := hg (f b).2 hb₁
  exact ⟨held₂, hmoves₁.trans hmoves₂, hq, hsame₂.trans hsame₁⟩

/-- A call that opens something: nothing is opened only where the function may fail. -/
theorem leaves_acquire {call : N} {opens : ℕ → H} {Q : Option ℕ → Multiset H → Prop}
    (hfail : fails call → Q none held) (hopen : ∀ n, Q (some n) (opens n ::ₘ held)) :
    Leaves fails held (acquire call opens : Accounted N H X (Option ℕ)) Q := by
  intro b hb
  rw [acquire]
  rcases hanswer : b.answers call b.calls with _ | n
  · exact ⟨held, Moves.refl held b.ledger, hfail (hb call b.calls hanswer), rfl⟩
  · exact ⟨opens n ::ₘ held, Moves.opened held b.ledger (opens n), hopen n, rfl⟩

/-- A call that opens nothing: its failure is a reason, and its success changes nothing. -/
theorem leaves_attempt {call : N} {Q : Bool → Multiset H → Prop} (hfail : fails call → Q false held)
    (hsuccess : Q true held) : Leaves fails held (attempt call : Accounted N H X Bool) Q := by
  intro b hb
  rw [attempt]
  rcases hanswer : b.answers call b.calls with _ | n
  · exact ⟨held, Moves.refl held b.ledger, hfail (hb call b.calls hanswer), rfl⟩
  · exact ⟨held, Moves.refl held b.ledger, hsuccess, rfl⟩

/-- Only what is open may be released. -/
theorem leaves_release {h : H} {Q : Unit → Multiset H → Prop} (hmem : h ∈ held)
    (hQ : Q () (held.erase h)) :
    Leaves fails held (release h : Accounted N H X Unit) Q :=
  fun b _ => ⟨held.erase h, Moves.closed hmem b.ledger, hQ, rfl⟩

/-- A note does not change what is open. -/
theorem leaves_note {x : X} {Q : Unit → Multiset H → Prop} (hQ : Q () held) :
    Leaves fails held (note x : Accounted N H X Unit) Q :=
  fun b _ => ⟨held, Moves.refl held b.ledger, hQ, rfl⟩

/-- What is open at the beginning may be released first. -/
theorem leaves_release_cons {h : H} {Q : Unit → Multiset H → Prop} (hQ : Q () held) :
    Leaves fails (h ::ₘ held) (release h : Accounted N H X Unit) Q :=
  leaves_release (Multiset.mem_cons_self h held) (by rwa [Multiset.erase_cons_head])

end W32HttpServer.Lib.Account
