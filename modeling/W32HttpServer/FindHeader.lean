/-
The search for a header field: `find_header` of server_http.c.

The function is not called by the server. It runs a loop over the lines of a header block as
`parse_http_request` reports it, with three scans inside. The memory it may read is the list
`mem`; a read behind its end is the outcome `left_memory`, and `running` says that the passes
allowed to the loop were used up.

What the loop does on the lines of a block is exact (`find_header_returns`): it stops at the
first line that begins with the name, whatever follows the name there. The scan for blanks
starts at the colon and stays on it, and the statement that would set `end` is in a comment, so
no item has one, and none has a value behind the colon (`find_header_returned`). The only way out
of the loop is a match. Where no line begins with the name it reads on behind the block
(`find_header_leaves_block`), and an item it returns is never the null item (`item_not_null`).
-/
import W32HttpServer.Common
import W32HttpServer.HttpRequest
import W32HttpServer.RequestText
import W32HttpServer.Lib.Scan

set_option autoImplicit false

namespace W32HttpServer.FindHeader

open W32HttpServer.Common W32HttpServer.HttpRequest W32HttpServer.RequestText
open W32HttpServer.Lib.Scan

/-! ## `find_header` -/

/-- A null pointer is `none`, any other an index into the memory. -/
structure http_header_item_t where
  start : Option ℕ
  end_ : Option ℕ
  value : Option ℕ
  next_ : Option ℕ
  deriving DecidableEq

/-- `strnicmp(s1, s2, strlen(s2)) == 0` on memory: the bytes are read up to the first that
differs. -/
def strnicmp_read : List u8 → List u8 → Option Bool
  | _, [] => some true
  | [], _ :: _ => none
  | a :: mem, b :: name => if tolower a = tolower b then strnicmp_read mem name else some false

def is_blank (c : u8) : Bool := c == chr '\t' || c == chr ' '

/-- One pass through the body of the loop: whether its condition asks for another, and
`item.start` and `item.value` behind it. -/
def find_header_pass (mem : List u8) (hdr : http_header_t) (header_name : List u8) (start : ℕ)
    (value : Option ℕ) : Option (Bool × ℕ × Option ℕ) := do
  let ret ← strnicmp_read (mem.drop start) header_name
  if ret = false then
    -- skip the whole line; `continue` goes to the condition, where `ret` decides
    let ptr ← scanFrom (Probe.headIs (· == chr '\n')) mem start
    some (true, ptr + 1, value)
  else
    let colon ← scanFrom (Probe.headIs (· == chr ':')) mem start
    let ptr ← scanFrom (Probe.headIs (fun c => !is_blank c)) mem colon
    let lf ← scanFrom (Probe.headIs (· == chr '\n')) mem ptr
    some (decide (lf = hdr.end_ ∨ lf + 1 = hdr.end_), start, some ptr)

inductive outcome_t
  | running
  | left_memory
  | returned (item : http_header_item_t)
  deriving DecidableEq

def find_header_loop (mem : List u8) (hdr : http_header_t) (header_name : List u8) :
    ℕ → ℕ → Option ℕ → outcome_t
  | 0, _, _ => .running
  | passes + 1, start, value =>
      match find_header_pass mem hdr header_name start value with
      | none => .left_memory
      | some (true, start, value) => find_header_loop mem hdr header_name passes start value
      | some (false, start, value) =>
          .returned ⟨if value = none then none else some start, none, value, none⟩

def find_header (mem : List u8) (hdr : http_header_t) (header_name : List u8) (passes : ℕ) :
    outcome_t :=
  find_header_loop mem hdr (cstr header_name) passes hdr.start none

/-! ## What every returned item is -/

/-- A scan that starts where it may stop stays there. -/
theorem scanFrom_stays {p : u8 → Bool} {mem : List u8} {i m : ℕ} {c : u8}
    (hc : mem[i]? = some c) (hp : p c = true) (h : scanFrom (Probe.headIs p) mem i = some m) :
    m = i := by
  obtain ⟨hi, hget⟩ := List.getElem?_eq_some_iff.mp hc
  have hdrop : mem.drop i = c :: mem.drop (i + 1) := by
    rw [List.drop_eq_getElem_cons hi, hget]
  have hread : (Probe.headIs p).read (mem.drop i) = some true := by
    rw [hdrop, Probe.headIs_read_cons, hp]
  rw [scanFrom, scan_of_true hread] at h
  exact (Option.some.inj h).symm

theorem scanFrom_headIs_get {p : u8 → Bool} {mem : List u8} {i m : ℕ}
    (h : scanFrom (Probe.headIs p) mem i = some m) : ∃ c, mem[m]? = some c ∧ p c = true := by
  obtain ⟨x, c, y, hxy, -, hc, rfl⟩ := scan_headIs_eq_some h
  refine ⟨c, ?_, hc⟩
  rw [← List.getElem?_drop, hxy, List.getElem?_append_right (le_refl _), Nat.sub_self]
  rfl

/-- The two ways through the body of the loop. -/
theorem find_header_pass_cases {mem name : List u8} {hdr : http_header_t} {start start' : ℕ}
    {value value' : Option ℕ} {again : Bool}
    (h : find_header_pass mem hdr name start value = some (again, start', value')) :
    again = true ∨ ∃ p, value' = some p ∧ mem[p]? = some (chr ':') := by
  rw [find_header_pass, Option.bind_eq_bind, Option.bind_eq_some_iff] at h
  obtain ⟨ret, -, h⟩ := h
  by_cases hret : ret = false
  · rw [if_pos hret, Option.bind_eq_bind, Option.bind_eq_some_iff] at h
    obtain ⟨ptr, -, h⟩ := h
    exact Or.inl (Prod.mk.inj (Option.some.inj h)).1.symm
  · simp only [if_neg hret, Option.bind_eq_bind, Option.bind_eq_some_iff, Option.some.injEq,
      Prod.mk.injEq] at h
    obtain ⟨colon, hcolon, ptr, hptr, lf, -, -, -, hvalue⟩ := h
    obtain ⟨c, hget, hc⟩ := scanFrom_headIs_get hcolon
    obtain rfl : c = chr ':' := by simpa using hc
    -- the scan for blanks does not leave the colon
    obtain rfl := scanFrom_stays hget (by decide) hptr
    exact Or.inr ⟨ptr, hvalue.symm, hget⟩

/-- **No item has an end, and each value is the colon itself.** -/
theorem find_header_returned {mem header_name : List u8} {hdr : http_header_t} {passes : ℕ}
    {item : http_header_item_t}
    (h : find_header mem hdr header_name passes = .returned item) :
    item.end_ = none ∧ ∃ p, item.value = some p ∧ mem[p]? = some (chr ':') := by
  have hloop : ∀ (passes start : ℕ) (value : Option ℕ),
      find_header_loop mem hdr (cstr header_name) passes start value = .returned item →
      item.end_ = none ∧ ∃ p, item.value = some p ∧ mem[p]? = some (chr ':') := by
    intro passes
    induction passes with
    | zero => exact fun _ _ h => absurd h (by simp [find_header_loop])
    | succ passes ih =>
        intro start value h
        rw [find_header_loop] at h
        rcases hpass : find_header_pass mem hdr (cstr header_name) start value
          with _ | ⟨_ | _, start', value'⟩
        · rw [hpass] at h
          exact absurd h (by simp)
        · rw [hpass] at h
          obtain rfl := outcome_t.returned.inj h
          rcases find_header_pass_cases hpass with hagain | hvalue
          · exact absurd hagain (by decide)
          · exact ⟨rfl, hvalue⟩
        · rw [hpass] at h
          exact ih start' value' h
  exact hloop passes hdr.start none h

/-! ## Header blocks -/

/-- A line of a header block: a name, a colon, and what stands behind it. -/
structure field_t where
  name : List u8
  rest : List u8
  deriving DecidableEq

def field_t.line (f : field_t) : List u8 := f.name ++ chr ':' :: f.rest

structure field_t.WellFormed (f : field_t) : Prop where
  no_colon : chr ':' ∉ f.name
  no_cr : chr '\r' ∉ f.line
  no_lf : chr '\n' ∉ f.line

def block (fields : List field_t) : List u8 := crlf.intercalate (fields.map field_t.line)

/-- How far behind the beginning of a block the line behind these fields starts. -/
def offset (fields : List field_t) : ℕ := (fields.map fun f => f.line.length + 2).sum

/-- The line begins with the name, up to case. -/
def Begins (name l : List u8) : Prop := name.map tolower <+: l.map tolower

instance (name l : List u8) : Decidable (Begins name l) := inferInstanceAs (Decidable (_ <+: _))

theorem not_mem_map_tolower {d : u8} (hd : tolower d = d) (hlow : d.toNat < 97) {s : List u8}
    (hs : d ∉ s) : d ∉ s.map tolower := by
  intro h
  obtain ⟨c, hc, hcd⟩ := List.mem_map.mp h
  exact hs ((tolower_eq_iff hd hlow).mp hcd ▸ hc)

/-- A text without `x` that begins a longer one ends in front of the first `x`. -/
theorem prefix_append_cons_iff {w u t : List u8} {x : u8} (hx : x ∉ w) :
    w <+: u ++ x :: t ↔ w <+: u := by
  constructor
  · intro h
    rcases List.prefix_or_prefix_of_prefix h (List.prefix_append u (x :: t)) with hw | ⟨z, rfl⟩
    · exact hw
    · rcases z with _ | ⟨a, z⟩
      · rw [List.append_nil]
      · rw [List.prefix_append_right_inj, List.cons_prefix_cons] at h
        exact absurd (List.mem_append_right u (h.1 ▸ List.mem_cons_self)) hx
  · exact fun h => h.trans (List.prefix_append u (x :: t))

/-- A name is compared with the name of a field. -/
theorem begins_line_iff {name : List u8} (hcolon : chr ':' ∉ name) (f : field_t) :
    Begins name f.line ↔ Begins name f.name := by
  have hx : chr ':' ∉ name.map tolower := not_mem_map_tolower (by decide) (by decide) hcolon
  have hline : f.line.map tolower = f.name.map tolower ++ chr ':' :: f.rest.map tolower := by
    rw [field_t.line, List.map_append]
    rfl
  rw [Begins, hline, prefix_append_cons_iff hx, Begins]

/-- The comparison does not get past the end of a line. -/
theorem strnicmp_read_line {name : List u8} (hcr : chr '\r' ∉ name) (l behind : List u8) :
    strnicmp_read (l ++ chr '\r' :: behind) name = some (decide (Begins name l)) := by
  induction l generalizing name with
  | nil =>
      rcases name with _ | ⟨b, name⟩
      · rfl
      · have hb : tolower (chr '\r') ≠ tolower b := by
          intro h
          have hcase : tolower b = chr '\r' := h.symm
          exact hcr ((tolower_eq_iff (by decide) (by decide)).mp hcase ▸ List.mem_cons_self)
        rw [List.nil_append, strnicmp_read, if_neg hb]
        rfl
  | cons a l ih =>
      rcases name with _ | ⟨b, name⟩
      · rfl
      · rw [List.mem_cons, not_or] at hcr
        rw [List.cons_append, strnicmp_read, ih hcr.2]
        by_cases hab : tolower a = tolower b
        · have hbegins : Begins (b :: name) (a :: l) ↔ Begins name l := by
            rw [Begins, Begins, List.map_cons, List.map_cons, List.cons_prefix_cons, hab,
              and_iff_right rfl]
          rw [if_pos hab, decide_eq_decide.mpr hbegins]
        · have hno : ¬ Begins (b :: name) (a :: l) := by
            rw [Begins, List.map_cons, List.map_cons, List.cons_prefix_cons]
            exact fun h => hab h.1.symm
          rw [if_neg hab, decide_eq_false hno]

/-! ## One pass on a line -/

/-- Where a scan stops that starts in front of `x`. -/
theorem scanFrom_past {p : u8 → Bool} {mem x y : List u8} {a : u8} {i : ℕ}
    (hmem : mem.drop i = x ++ a :: y) (hx : ∀ b ∈ x, p b = false) (ha : p a = true) :
    scanFrom (Probe.headIs p) mem i = some (i + x.length) := by
  rw [scanFrom, hmem, scan_headIs hx ha]

/-- The next line is found behind the end of this one. -/
theorem line_end_scan {mem l more : List u8} {start : ℕ}
    (hmem : mem.drop start = l ++ (crlf ++ more)) (hl : chr '\n' ∉ l) :
    scanFrom (Probe.headIs (· == chr '\n')) mem start = some (start + l.length + 1) := by
  have hcut : mem.drop start = (l ++ [chr '\r']) ++ chr '\n' :: more := by
    rw [hmem, List.append_assoc]
    rfl
  have hno : chr '\n' ∉ l ++ [chr '\r'] := by
    rw [List.mem_append, List.mem_singleton, not_or]
    exact ⟨hl, by decide⟩
  rw [scanFrom_past hcut (no_probe hno) (by decide), List.length_append, List.length_singleton,
    Nat.add_assoc]

/-- A line that does not begin with the name is skipped. -/
theorem find_header_pass_skips {mem name l more : List u8} {start : ℕ}
    (hmem : mem.drop start = l ++ (crlf ++ more)) (hl : chr '\n' ∉ l) (hcr : chr '\r' ∉ name)
    (hno : ¬ Begins name l) (hdr : http_header_t) (value : Option ℕ) :
    find_header_pass mem hdr name start value = some (true, start + l.length + 2, value) := by
  have hret : strnicmp_read (mem.drop start) name = some false := by
    rw [hmem, ← decide_eq_false hno]
    exact strnicmp_read_line hcr l (chr '\n' :: more)
  rw [find_header_pass, hret, Option.bind_eq_bind, Option.bind_some, if_pos rfl,
    line_end_scan hmem hl]
  rfl

/-- A line that begins with the name ends the pass at its colon. -/
theorem find_header_pass_matches {mem name more : List u8} {f : field_t} {start : ℕ}
    (hmem : mem.drop start = f.line ++ (crlf ++ more)) (hf : f.WellFormed)
    (hcr : chr '\r' ∉ name) (hbegins : Begins name f.line) (hdr : http_header_t)
    (value : Option ℕ) :
    find_header_pass mem hdr name start value
      = some (decide (start + f.line.length + 1 = hdr.end_ ∨ start + f.line.length + 2 = hdr.end_),
          start, some (start + f.name.length)) := by
  have hret : strnicmp_read (mem.drop start) name = some true := by
    rw [hmem, ← decide_eq_true hbegins]
    exact strnicmp_read_line hcr f.line (chr '\n' :: more)
  have hcolon : scanFrom (Probe.headIs (· == chr ':')) mem start
      = some (start + f.name.length) := by
    have hcut : mem.drop start = f.name ++ chr ':' :: (f.rest ++ (crlf ++ more)) := by
      rw [hmem, field_t.line, List.append_assoc, List.cons_append]
    exact scanFrom_past hcut (no_probe hf.no_colon) (by decide)
  have hbehind : mem.drop (start + f.name.length) = (chr ':' :: f.rest) ++ (crlf ++ more) := by
    rw [← List.drop_drop, hmem, field_t.line, List.append_assoc, List.drop_left]
  have hblank : scanFrom (Probe.headIs (fun c => !is_blank c)) mem (start + f.name.length)
      = some (start + f.name.length) := by
    have hstop : (!is_blank (chr ':')) = true := by decide
    exact scanFrom_past (x := []) hbehind (fun b hb => absurd hb (by simp)) hstop
  have hlf : scanFrom (Probe.headIs (· == chr '\n')) mem (start + f.name.length)
      = some (start + f.line.length + 1) := by
    have hno : chr '\n' ∉ chr ':' :: f.rest := fun h => hf.no_lf (List.mem_append_right _ h)
    rw [line_end_scan hbehind hno, field_t.line, List.length_append, Nat.add_assoc start]
  rw [find_header_pass, hret, Option.bind_eq_bind, Option.bind_some, if_neg (by decide), hcolon,
    Option.bind_eq_bind, Option.bind_some, hblank, Option.bind_some, hlf, Option.bind_some]

/-! ## The lines of a block -/

/-- What stands behind the first line of a block. -/
def behind_line (fields : List field_t) (behind : List u8) : List u8 :=
  if fields = [] then crlf ++ behind else block fields ++ (crlfcrlf ++ behind)

theorem block_cons (f : field_t) (fields : List field_t) (behind : List u8) :
    block (f :: fields) ++ (crlfcrlf ++ behind)
      = f.line ++ (crlf ++ behind_line fields behind) := by
  rcases fields with _ | ⟨g, fields⟩
  · rw [behind_line, if_pos rfl, block, List.map_singleton, List.intercalate_singleton]
    rfl
  · have hne : ¬ g :: fields = [] := by simp
    rw [behind_line, if_neg hne, block, List.map_cons, List.map_cons, List.intercalate_cons_cons,
      block, List.map_cons, List.append_assoc, List.append_assoc]

theorem block_length_cons (f : field_t) (fields : List field_t) :
    (block (f :: fields)).length
      = f.line.length + if fields = [] then 0 else 2 + (block fields).length := by
  rcases fields with _ | ⟨g, fields⟩
  · rw [if_pos rfl, block, List.map_singleton, List.intercalate_singleton, Nat.add_zero]
  · have hne : ¬ g :: fields = [] := by simp
    have hcrlf : crlf.length = 2 := rfl
    rw [if_neg hne, block, List.map_cons, List.map_cons, List.intercalate_cons_cons, block,
      List.map_cons, List.length_append, List.length_append, hcrlf, Nat.add_assoc]

/-- A block with a line in it is not empty. -/
theorem block_length_pos {fields : List field_t} (h : fields ≠ []) : 0 < (block fields).length := by
  obtain ⟨f, fs, rfl⟩ := List.exists_cons_of_ne_nil h
  have hline : 0 < f.line.length := by
    rw [field_t.line, List.length_append, List.length_cons]
    omega
  rw [block_length_cons]
  omega

theorem offset_cons (f : field_t) (fields : List field_t) :
    offset (f :: fields) = f.line.length + 2 + offset fields := by
  rw [offset, List.map_cons, List.sum_cons, offset]

theorem offset_append (fields fields' : List field_t) :
    offset (fields ++ fields') = offset fields + offset fields' := by
  rw [offset, List.map_append, List.sum_append, offset, offset]

/-! ## Runs -/

variable {mem name behind : List u8} {hdr : http_header_t}

/-- From one line of a block to the next. -/
theorem drop_behind_line {f : field_t} {fields : List field_t} {start : ℕ}
    (hmem : mem.drop start = block (f :: fields) ++ (crlfcrlf ++ behind)) :
    mem.drop (start + f.line.length + 2) = behind_line fields behind := by
  have htwo : f.line.length + 2 = (f.line ++ crlf).length := by
    rw [List.length_append]
    rfl
  rw [Nat.add_assoc, ← List.drop_drop, hmem, block_cons, htwo, ← List.append_assoc, List.drop_left]

/-- The loop goes on behind a line that does not begin with the name. -/
theorem find_header_loop_skips {l more : List u8} {start : ℕ}
    (hmem : mem.drop start = l ++ (crlf ++ more)) (hl : chr '\n' ∉ l) (hcr : chr '\r' ∉ name)
    (hno : ¬ Begins name l) (passes : ℕ) (value : Option ℕ) :
    find_header_loop mem hdr name (passes + 1) start value
      = find_header_loop mem hdr name passes (start + l.length + 2) value := by
  rw [find_header_loop, find_header_pass_skips hmem hl hcr hno]

/-- The loop stops at the first line that begins with the name. -/
theorem find_header_loop_finds {f : field_t} {after : List field_t} (hcr : chr '\r' ∉ name)
    (hf : f.WellFormed) (hbegins : Begins name f.line) {before : List field_t} :
    ∀ {start passes : ℕ} {value : Option ℕ},
      (∀ g ∈ before, g.WellFormed ∧ ¬ Begins name g.line) →
      mem.drop start = block (before ++ f :: after) ++ (crlfcrlf ++ behind) →
      hdr.end_ = start + (block (before ++ f :: after)).length → before.length < passes →
      find_header_loop mem hdr name passes start value
        = .returned ⟨some (start + offset before), none,
            some (start + offset before + f.name.length), none⟩ := by
  induction before with
  | nil =>
      intro start passes value _ hmem hend hpasses
      obtain ⟨passes, rfl⟩ : ∃ k, passes = k + 1 := ⟨passes - 1, by simp at hpasses; omega⟩
      rw [List.nil_append] at hmem hend
      -- the line feed of the line is not where the block ends
      have hpast : ¬ (start + f.line.length + 1 = hdr.end_
          ∨ start + f.line.length + 2 = hdr.end_) := by
        rw [hend, block_length_cons]
        split_ifs with hafter
        · omega
        · have hpos := block_length_pos hafter
          omega
      rw [block_cons] at hmem
      rw [find_header_loop, find_header_pass_matches hmem hf hcr hbegins, decide_eq_false hpast]
      rfl
  | cons g before ih =>
      intro start passes value hbefore hmem hend hpasses
      rw [List.forall_mem_cons] at hbefore
      rw [List.length_cons] at hpasses
      obtain ⟨passes, rfl⟩ : ∃ k, passes = k + 1 := ⟨passes - 1, by omega⟩
      rw [List.cons_append] at hmem hend
      have hrest : ¬ before ++ f :: after = [] := by simp
      have hnext := drop_behind_line hmem
      rw [behind_line, if_neg hrest] at hnext
      have hend' : hdr.end_
          = start + g.line.length + 2 + (block (before ++ f :: after)).length := by
        rw [hend, block_length_cons, if_neg hrest]
        omega
      rw [block_cons] at hmem
      rw [find_header_loop_skips hmem hbefore.1.1.no_lf hcr hbefore.1.2,
        ih hbefore.2 hnext hend' (by omega), offset_cons]
      simp only [Nat.add_assoc]

/-- A name of its own is not found at the end of a line. -/
theorem not_begins_nil (hname : name ≠ []) : ¬ Begins name [] := by
  rw [Begins, List.map_nil, List.prefix_nil, List.map_eq_nil_iff]
  exact hname

/-- Behind the last line there is one line end, and then nothing to read. -/
theorem find_header_loop_end (hcr : chr '\r' ∉ name) (hname : name ≠ []) {start : ℕ}
    (hmem : mem.drop start = crlf) (passes : ℕ) (value : Option ℕ) :
    find_header_loop mem hdr name (passes + 2) start value = .left_memory := by
  obtain ⟨b, name', rfl⟩ := List.exists_cons_of_ne_nil hname
  have hend : mem.drop (start + 2) = [] := by
    rw [← List.drop_drop, hmem]
    rfl
  have hempty : mem.drop start = [] ++ (crlf ++ []) := hmem
  have hpass : find_header_pass mem hdr (b :: name') (start + 2) value = none := by
    rw [find_header_pass, hend, strnicmp_read]
    rfl
  rw [find_header_loop_skips hempty (by simp) hcr (not_begins_nil hname)]
  show find_header_loop mem hdr (b :: name') (passes + 1) (start + 2) value = .left_memory
  rw [find_header_loop, hpass]

/-- The loop runs through a block in which no line begins with the name. -/
theorem find_header_loop_leaves (hcr : chr '\r' ∉ name) (hname : name ≠ [])
    {fields : List field_t} :
    ∀ {start passes : ℕ} {value : Option ℕ},
      (∀ g ∈ fields, g.WellFormed ∧ ¬ Begins name g.line) →
      mem.drop start = block fields ++ crlfcrlf → fields.length + 3 ≤ passes →
      find_header_loop mem hdr name passes start value = .left_memory := by
  induction fields with
  | nil =>
      intro start passes value _ hmem hpasses
      obtain ⟨passes, rfl⟩ : ∃ k, passes = k + 3 := ⟨passes - 3, by omega⟩
      have hempty : mem.drop start = [] ++ (crlf ++ crlf) := hmem
      have hend : mem.drop (start + 2) = crlf := by
        rw [← List.drop_drop, hmem]
        rfl
      rw [find_header_loop_skips hempty (by simp) hcr (not_begins_nil hname)]
      exact find_header_loop_end hcr hname hend passes value
  | cons f fields ih =>
      intro start passes value hfields hmem hpasses
      rw [List.forall_mem_cons] at hfields
      rw [List.length_cons] at hpasses
      obtain ⟨passes, rfl⟩ : ∃ k, passes = k + 3 := ⟨passes - 3, by omega⟩
      have hmem' : mem.drop start = block (f :: fields) ++ (crlfcrlf ++ []) := by
        rw [hmem, List.append_nil]
      have hnext := drop_behind_line hmem'
      rw [block_cons] at hmem'
      rw [find_header_loop_skips hmem' hfields.1.1.no_lf hcr hfields.1.2]
      by_cases hlast : fields = []
      · rw [behind_line, if_pos hlast, List.append_nil] at hnext
        exact find_header_loop_end hcr hname hnext passes value
      · rw [behind_line, if_neg hlast, List.append_nil] at hnext
        exact ih hfields.2 hnext (by omega)

/-- More passes do not change a run that is over. -/
theorem find_header_loop_over : ∀ {passes start : ℕ} {value : Option ℕ},
    find_header_loop mem hdr name passes start value ≠ .running → ∀ k,
      find_header_loop mem hdr name (passes + k) start value
        = find_header_loop mem hdr name passes start value := by
  intro passes
  induction passes with
  | zero => exact fun h => absurd rfl h
  | succ passes ih =>
      intro start value h k
      rw [Nat.add_right_comm, find_header_loop, find_header_loop]
      rw [find_header_loop] at h
      rcases hpass : find_header_pass mem hdr name start value with _ | ⟨_ | _, start', value'⟩
      · rfl
      · rfl
      · rw [hpass] at h
        exact ih h k

/-- The item does not depend on how many passes are allowed. -/
theorem find_header_determined {header_name : List u8} {p q : ℕ} {item item' : http_header_item_t}
    (hp : find_header mem hdr header_name p = .returned item)
    (hq : find_header mem hdr header_name q = .returned item') : item = item' := by
  have hover : find_header mem hdr header_name p ≠ .running :=
    fun h => absurd (hp.symm.trans h) (by simp)
  have hover' : find_header mem hdr header_name q ≠ .running :=
    fun h => absurd (hq.symm.trans h) (by simp)
  have heq := find_header_loop_over hover' p
  rw [Nat.add_comm, find_header_loop_over hover q] at heq
  rw [find_header] at hp hq
  rw [hp, hq] at heq
  exact outcome_t.returned.inj heq

/-! ## The block of a parsed request -/

/-- A header block in memory, with CR LF CR LF and `behind` at its end. -/
structure HeaderBlock (mem behind : List u8) (hdr : http_header_t) (fields : List field_t) :
    Prop where
  cut : mem.drop hdr.start = block fields ++ (crlfcrlf ++ behind)
  end_eq : hdr.end_ = hdr.start + (block fields).length
  well_formed : ∀ f ∈ fields, f.WellFormed

/-- The parser cuts the payload in front of the header and behind CR LF CR LF. -/
theorem header_cut {payload : List u8} {x : u32} {req : http_request_t}
    (hparse : parse_http_request payload x = some req) :
    ∃ front rest, payload = front ++ (header_bytes req ++ (crlfcrlf ++ rest))
      ∧ req.header.start = front.length
      ∧ req.header.end_ = front.length + (header_bytes req).length := by
  obtain ⟨i, j, k, m, -, -, hk, hm, rfl⟩ := parse_http_request_eq_some.mp hparse
  obtain ⟨header, y, hcut, rfl, hy⟩ := scan_eq_some hm
  obtain ⟨rest, rfl⟩ := Probe.word_read_true.mp hy
  have hle : k + 1 ≤ payload.length := (scanFrom_headIs_bounds (Nat.zero_le _) hk).2
  have hfront : (payload.take (k + 1)).length = k + 1 := List.length_take_of_le hle
  have hpayload : payload = payload.take (k + 1) ++ (header ++ (crlfcrlf ++ rest)) := by
    rw [← hcut, List.take_append_drop]
  have hheader : slice payload (k + 1) (k + 1 + header.length) = header := by
    rw [slice, hcut, Nat.add_sub_cancel_left, List.take_left]
  refine ⟨payload.take (k + 1), rest, ?_, hfront.symm, ?_⟩
  · show payload = payload.take (k + 1)
      ++ (slice payload (k + 1) (k + 1 + header.length) ++ (crlfcrlf ++ rest))
    rw [hheader]
    exact hpayload
  · show k + 1 + header.length = (payload.take (k + 1)).length
      + (slice payload (k + 1) (k + 1 + header.length)).length
    rw [hheader, hfront]

/-- The block in the memory of the request, whatever follows it there, and in the part of that
memory that ends with its CR LF CR LF. -/
theorem header_block_parsed {payload : List u8} {x : u32} {req : http_request_t}
    (hparse : parse_http_request payload x = some req) {fields : List field_t}
    (hfields : header_bytes req = block fields) (hwf : ∀ f ∈ fields, f.WellFormed)
    (more : List u8) :
    (∃ behind, HeaderBlock (payload ++ more) behind req.header fields)
      ∧ HeaderBlock ((payload ++ more).take (req.header.end_ + 4)) [] req.header fields := by
  obtain ⟨front, rest, hcut, hstart, hend⟩ := header_cut hparse
  rw [hfields] at hcut hend
  have hmore : payload ++ more = front ++ (block fields ++ (crlfcrlf ++ (rest ++ more))) := by
    rw [hcut]
    simp only [List.append_assoc]
  have hinside : payload ++ more = (front ++ (block fields ++ crlfcrlf)) ++ (rest ++ more) := by
    rw [hmore]
    simp only [List.append_assoc]
  have hlen : req.header.end_ + 4 = (front ++ (block fields ++ crlfcrlf)).length := by
    have hword : crlfcrlf.length = 4 := rfl
    rw [hend, List.length_append, List.length_append, hword, Nat.add_assoc]
  constructor
  · refine ⟨rest ++ more, ?_, by rw [hend, hstart], hwf⟩
    rw [hmore, hstart, List.drop_left]
  · refine ⟨?_, by rw [hend, hstart], hwf⟩
    rw [hinside, hlen, List.take_left, hstart, List.drop_left, List.append_nil]

/-- A line that begins with a text holds no byte the text must not hold. -/
theorem not_mem_of_begins {name l : List u8} {d : u8} (hd : tolower d = d) (hlow : d.toNat < 97)
    (hbegins : Begins name l) (hl : d ∉ l) : d ∉ name := by
  intro h
  have hmem : d ∈ name.map tolower := List.mem_map.mpr ⟨d, h, hd⟩
  exact not_mem_map_tolower hd hlow hl (hbegins.subset hmem)

/-- **Where the search stops.** At the first line that begins with the name, with the beginning
of that line and its colon. -/
theorem find_header_returns {header_name : List u8} {before after : List field_t} {f : field_t}
    (hblock : HeaderBlock mem behind hdr (before ++ f :: after))
    (hbefore : ∀ g ∈ before, ¬ Begins (cstr header_name) g.line)
    (hbegins : Begins (cstr header_name) f.line) {passes : ℕ} (hpasses : before.length < passes) :
    find_header mem hdr header_name passes
      = .returned ⟨some (hdr.start + offset before), none,
          some (hdr.start + offset before + f.name.length), none⟩ := by
  have hf : f.WellFormed := hblock.well_formed f (by simp)
  have hcr : chr '\r' ∉ cstr header_name :=
    not_mem_of_begins (by decide) (by decide) hbegins hf.no_cr
  have hskipped : ∀ g ∈ before, g.WellFormed ∧ ¬ Begins (cstr header_name) g.line :=
    fun g hg => ⟨hblock.well_formed g (List.mem_append_left _ hg), hbefore g hg⟩
  exact find_header_loop_finds hcr hf hbegins hskipped hblock.cut hblock.end_eq hpasses

/-- The first line with a property. -/
theorem first_line {P : field_t → Prop} [DecidablePred P] {fields : List field_t}
    (h : ∃ f ∈ fields, P f) :
    ∃ before f after, fields = before ++ f :: after ∧ (∀ g ∈ before, ¬ P g) ∧ P f := by
  obtain ⟨g, hg, hP⟩ := h
  have hsome : (fields.find? (fun f => decide (P f))).isSome :=
    List.find?_isSome.mpr ⟨g, hg, by simpa using hP⟩
  obtain ⟨f, hf⟩ := Option.isSome_iff_exists.mp hsome
  obtain ⟨hPf, before, after, rfl, hbefore⟩ := List.find?_eq_some_iff_append.mp hf
  exact ⟨before, f, after, rfl, by simpa using hbefore, by simpa using hPf⟩

/-- A search for the empty name needs a colon in the block. -/
theorem find_header_pass_empty {start : ℕ} (hmem : mem.drop start = crlfcrlf)
    (value : Option ℕ) : find_header_pass mem hdr [] start value = none := by
  have hret : strnicmp_read (mem.drop start) [] = some true := by rw [strnicmp_read]
  have hcolon : scanFrom (Probe.headIs (· == chr ':')) mem start = none := by
    rw [scanFrom, hmem]
    rfl
  rw [find_header_pass, hret, Option.bind_eq_bind, Option.bind_some, if_neg (by decide), hcolon]
  rfl

/-- **Where no line begins with the name, the search leaves the block.** -/
theorem find_header_leaves_block {header_name : List u8} {fields : List field_t}
    (hblock : HeaderBlock mem [] hdr fields) (hcr : chr '\r' ∉ cstr header_name)
    (hno : ∀ f ∈ fields, ¬ Begins (cstr header_name) f.line) {passes : ℕ}
    (hpasses : fields.length + 3 ≤ passes) :
    find_header mem hdr header_name passes = .left_memory := by
  have hcut : mem.drop hdr.start = block fields ++ crlfcrlf := by
    rw [hblock.cut, List.append_nil]
  by_cases hname : cstr header_name = []
  · -- every line begins with the empty name, so the block has none
    rcases fields with _ | ⟨f, fields⟩
    · obtain ⟨passes, rfl⟩ : ∃ k, passes = k + 1 := ⟨passes - 1, by omega⟩
      rw [find_header, hname, find_header_loop, find_header_pass_empty hcut]
    · have hf := hno f List.mem_cons_self
      rw [hname] at hf
      exact absurd (List.nil_prefix) hf
  · exact find_header_loop_leaves hcr hname (fun f hf => ⟨hblock.well_formed f hf, hno f hf⟩)
      hcut hpasses

/-! ## A present field -/

def SameName (name : List u8) (f : field_t) : Prop := f.name.map tolower = name.map tolower

instance (name : List u8) (f : field_t) : Decidable (SameName name f) :=
  inferInstanceAs (Decidable (_ = _))

theorem SameName.begins {name : List u8} {f : field_t} (h : SameName name f) :
    Begins name f.line := by
  rw [Begins, ← h, field_t.line, List.map_append]
  apply List.prefix_append

/-- The item of a line that starts at `start`: the value behind the colon and the blanks there,
and the end in front of CR LF. -/
structure http_header_item_t.Describes (item : http_header_item_t) (start : ℕ) (f : field_t) :
    Prop where
  start_eq : item.start = some start
  value_eq : item.value = some (start + f.name.length + 1 + (f.rest.takeWhile is_blank).length)
  end_eq : item.end_ = some (start + f.line.length)

/-- The search returns the item of the first line with the name. -/
def FindsField (mem : List u8) (hdr : http_header_t) (fields : List field_t)
    (header_name : List u8) : Prop :=
  ∃ before f after, fields = before ++ f :: after
    ∧ (∀ g ∈ before, ¬ SameName (cstr header_name) g) ∧ SameName (cstr header_name) f
    ∧ ∃ passes item, find_header mem hdr header_name passes = .returned item
      ∧ item.Describes (hdr.start + offset before) f

theorem not_describes {header_name : List u8} {passes start : ℕ} {f : field_t}
    {item : http_header_item_t} (h : find_header mem hdr header_name passes = .returned item) :
    ¬ item.Describes start f := by
  intro hitem
  have hend := hitem.end_eq
  rw [(find_header_returned h).1] at hend
  exact absurd hend (by simp)

/-- **The search for a present field returns, and never with the item of the field**: the line it
stops at is the first that begins with the name, its item has no end, and the value is the colon. -/
theorem field_not_found {payload : List u8} {x : u32} {req : http_request_t}
    (hparse : parse_http_request payload x = some req) {fields : List field_t}
    (hfields : header_bytes req = block fields) (hwf : ∀ f ∈ fields, f.WellFormed)
    {header_name : List u8} (hname : ∃ f ∈ fields, SameName (cstr header_name) f)
    (more : List u8) :
    (∃ passes item,
        find_header (payload ++ more) req.header header_name passes = .returned item)
      ∧ ¬ FindsField (payload ++ more) req.header fields header_name := by
  constructor
  · obtain ⟨g, hg, hsame⟩ := hname
    have hline : ∃ f ∈ fields, Begins (cstr header_name) f.line := ⟨g, hg, hsame.begins⟩
    obtain ⟨before, f, after, rfl, hbefore, hbegins⟩ := first_line hline
    obtain ⟨behind, hblock⟩ := (header_block_parsed hparse hfields hwf more).1
    exact ⟨_, _, find_header_returns hblock hbefore hbegins (Nat.lt_succ_self _)⟩
  · rintro ⟨before, f, after, -, -, -, passes, item, hitem, hdescribes⟩
    exact not_describes hitem hdescribes

/-- A request with one field. -/
def host_payload : List u8 := ascii "GET / HTTP/1.0\r\nHost: h\r\n\r\n"

def host_request : http_request_t := ⟨1, ⟨16, 23⟩, ⟨4, 5⟩, host_payload⟩

def host_fields : List field_t := [⟨ascii "Host", ascii " h"⟩]

theorem host_parsed : parse_http_request host_payload 0 = some host_request := by decide

theorem host_header : header_bytes host_request = block host_fields := by decide

theorem host_well_formed : ∀ f ∈ host_fields, f.WellFormed := by
  intro f hf
  rw [List.mem_singleton.mp hf]
  exact ⟨by decide, by decide, by decide⟩

/-- The only field of a request, its name in another case. -/
theorem field_not_found_host :
    (∃ passes item,
        find_header (host_payload ++ []) host_request.header (ascii "host") passes
          = .returned item)
      ∧ ¬ FindsField (host_payload ++ []) host_request.header host_fields (ascii "host") := by
  have hname : ∃ f ∈ host_fields, SameName (cstr (ascii "host")) f :=
    ⟨_, List.mem_singleton_self _, by decide⟩
  exact field_not_found host_parsed host_header host_well_formed hname []

theorem not_finds_field :
    ¬ ∀ (payload : List u8) (x : u32) (req : http_request_t) (fields : List field_t)
      (header_name more : List u8), parse_http_request payload x = some req →
        header_bytes req = block fields → (∀ f ∈ fields, f.WellFormed) →
        (∃ f ∈ fields, SameName (cstr header_name) f) →
        FindsField (payload ++ more) req.header fields header_name := by
  intro h
  obtain ⟨before, f, after, -, -, -, passes, item, hitem, hdescribes⟩ :=
    h _ _ _ _ (ascii "host") [] host_parsed host_header host_well_formed
      ⟨_, List.mem_singleton_self _, by decide⟩
  exact not_describes hitem hdescribes

/-- **Which line is found.** The item starts at the first line with the name iff no line in
front of it begins with the name. -/
theorem start_is_first_iff {header_name : List u8} {before after : List field_t} {f : field_t}
    (hblock : HeaderBlock mem behind hdr (before ++ f :: after))
    (hsame : SameName (cstr header_name) f) :
    (∃ passes item, find_header mem hdr header_name passes = .returned item
        ∧ item.start = some (hdr.start + offset before))
      ↔ ∀ g ∈ before, ¬ Begins (cstr header_name) g.line := by
  constructor
  · rintro ⟨passes, item, hitem, hstart⟩
    by_contra hsome
    push Not at hsome
    obtain ⟨front, g, back, rfl, hfront, hbegins⟩ := first_line hsome
    rw [List.append_assoc, List.cons_append] at hblock
    -- the search stops at the earlier line
    have hreturns := find_header_returns hblock hfront hbegins (Nat.lt_succ_self _)
    obtain rfl := find_header_determined hitem hreturns
    have heq : hdr.start + offset front = hdr.start + offset (front ++ g :: back) :=
      Option.some.inj hstart
    rw [offset_append, offset_cons] at heq
    omega
  · intro hbefore
    exact ⟨_, _, find_header_returns hblock hbefore hsame.begins (Nat.lt_succ_self _), rfl⟩

/-! ## An absent field -/

/-- The memory up to and with the CR LF CR LF at `hdr->end`. -/
def up_to_end (mem : List u8) (hdr : http_header_t) : List u8 := mem.take (hdr.end_ + 4)

/-- The search ends without a read behind the block. -/
def EndsInside (mem : List u8) (hdr : http_header_t) (header_name : List u8) : Prop :=
  ∃ passes item, find_header (up_to_end mem hdr) hdr header_name passes = .returned item

/-- The search ends without a read behind the block, with the null item. -/
def GivesUp (mem : List u8) (hdr : http_header_t) (header_name : List u8) : Prop :=
  ∃ passes item, find_header (up_to_end mem hdr) hdr header_name passes = .returned item
    ∧ item.start = none ∧ item.value = none

/-- An item that is returned has a value. -/
theorem item_not_null (mem : List u8) (hdr : http_header_t) (header_name : List u8) :
    ¬ GivesUp mem hdr header_name := by
  rintro ⟨passes, item, hitem, -, hvalue⟩
  obtain ⟨p, hp, -⟩ := (find_header_returned hitem).2
  rw [hp] at hvalue
  exact absurd hvalue (by simp)

/-- In a block without the name, the names that begin with it are longer. -/
theorem begins_line_iff_longer {name : List u8} (hcolon : chr ':' ∉ name) {f : field_t}
    (habsent : ¬ SameName name f) :
    Begins name f.line ↔ name.length < f.name.length ∧ Begins name f.name := by
  rw [begins_line_iff hcolon, iff_and_self]
  intro h
  have hle : name.length ≤ f.name.length := by simpa using h.length_le
  refine lt_of_le_of_ne hle fun hlen => habsent ?_
  exact (h.eq_of_length (by simpa using hlen)).symm

/-- When the search ends inside the block. -/
theorem ends_inside_iff {header_name : List u8} {fields : List field_t}
    (hblock : HeaderBlock (up_to_end mem hdr) [] hdr fields)
    (hcr : chr '\r' ∉ cstr header_name) :
    EndsInside mem hdr header_name ↔ ∃ f ∈ fields, Begins (cstr header_name) f.line := by
  constructor
  · rintro ⟨passes, item, hitem⟩
    by_contra hno
    push Not at hno
    have hleft := find_header_leaves_block hblock hcr hno (Nat.le_add_left _ passes)
    have hover : find_header (up_to_end mem hdr) hdr header_name passes ≠ .running :=
      fun h => absurd (hitem.symm.trans h) (by simp)
    have heq := find_header_loop_over hover (fields.length + 3)
    exact absurd (hleft.symm.trans (heq.trans hitem)) (by simp)
  · intro hsome
    obtain ⟨before, f, after, rfl, hbefore, hbegins⟩ := first_line hsome
    exact ⟨_, _, find_header_returns hblock hbefore hbegins (Nat.lt_succ_self _)⟩

/-- **The search for an absent field never gives up.** It ends inside the block only where
the name is the beginning of a longer one, and then with the item of that field. -/
theorem absent_field_found_or_left {payload : List u8} {x : u32} {req : http_request_t}
    (hparse : parse_http_request payload x = some req) {fields : List field_t}
    (hfields : header_bytes req = block fields) (hwf : ∀ f ∈ fields, f.WellFormed)
    {header_name : List u8} (habsent : ∀ f ∈ fields, ¬ SameName (cstr header_name) f)
    (more : List u8) :
    ¬ GivesUp (payload ++ more) req.header header_name
      ∧ (chr ':' ∉ cstr header_name → chr '\r' ∉ cstr header_name →
        (EndsInside (payload ++ more) req.header header_name
          ↔ ∃ f ∈ fields, (cstr header_name).length < f.name.length
            ∧ Begins (cstr header_name) f.name)) := by
  refine ⟨item_not_null _ _ _, fun hcolon hcr => ?_⟩
  rw [ends_inside_iff (header_block_parsed hparse hfields hwf more).2 hcr]
  constructor
  · rintro ⟨f, hf, hbegins⟩
    exact ⟨f, hf, (begins_line_iff_longer hcolon (habsent f hf)).mp hbegins⟩
  · rintro ⟨f, hf, hlonger⟩
    exact ⟨f, hf, (begins_line_iff_longer hcolon (habsent f hf)).mpr hlonger⟩

theorem host_has_no_accept : ∀ f ∈ host_fields, ¬ SameName (cstr (ascii "Accept")) f := by decide

/-- A request without the field. -/
theorem absent_field_left_accept :
    ¬ GivesUp (host_payload ++ []) host_request.header (ascii "Accept")
      ∧ (chr ':' ∉ cstr (ascii "Accept") → chr '\r' ∉ cstr (ascii "Accept") →
        (EndsInside (host_payload ++ []) host_request.header (ascii "Accept")
          ↔ ∃ f ∈ host_fields, (cstr (ascii "Accept")).length < f.name.length
            ∧ Begins (cstr (ascii "Accept")) f.name)) :=
  absent_field_found_or_left host_parsed host_header host_well_formed host_has_no_accept []

theorem not_gives_up :
    ¬ ∀ (payload : List u8) (x : u32) (req : http_request_t) (fields : List field_t)
      (header_name more : List u8), parse_http_request payload x = some req →
        header_bytes req = block fields → (∀ f ∈ fields, f.WellFormed) →
        (∀ f ∈ fields, ¬ SameName (cstr header_name) f) →
        GivesUp (payload ++ more) req.header header_name := by
  intro h
  apply item_not_null
  exact h _ _ _ _ (ascii "Accept") [] host_parsed host_header host_well_formed host_has_no_accept

end W32HttpServer.FindHeader
