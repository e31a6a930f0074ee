import ReviewQueue.PathTemplate.Expand
import ReviewQueue.PathTemplate.Matcher

/-!
# Reading a path back

The matcher runs all threads of a program side by side; the expander escapes values and joins them
with literal text. On a path that was expanded the threads never compete: a value holds no slash,
so of all waiting threads exactly one can take the next character.

* `Crowd.threads_arrive_value`, `Crowd.add_loop` — the threads that wait at and inside a value;
* `run_value` — a value is taken unit by unit, and its end is noted again after each of them;
* `run_segments` — what is noted when all of a delimited template was taken;
* `captures?_of_delimited` — the captures of a path that such a template can make.
-/

namespace ReviewQueue.PathTemplate

/-! ## Addresses -/

namespace Crowd

/-- An address that was not followed yet. -/
def Fresh (crowd : Crowd) (pc : Nat) : Prop := crowd.seen.getD pc true = false

/-- Notes that an address was followed. -/
def visit (crowd : Crowd) (pc : Nat) : Crowd :=
  { crowd with seen := crowd.seen.setIfInBounds pc true }

/-- Lets a thread wait at an address. -/
def wait (crowd : Crowd) (pc : Nat) (captures : Captures) : Crowd :=
  { crowd with threads := crowd.threads.push ⟨pc, captures⟩ }

@[simp] theorem fresh_empty (size pc : Nat) : (empty size).Fresh pc ↔ pc < size := by
  unfold Fresh empty
  by_cases h : pc < size
  · simp [h, Array.getD]
  · simp [h, Array.getD]

@[simp] theorem fresh_visit (crowd : Crowd) (pc q : Nat) :
    (crowd.visit pc).Fresh q ↔ q ≠ pc ∧ crowd.Fresh q := by
  unfold Fresh visit
  simp only [Array.getD_eq_getD_getElem?, Array.getElem?_setIfInBounds]
  by_cases h : pc = q
  · subst h
    simp
    split <;> simp
  · have h' : q ≠ pc := fun e => h e.symm
    simp [h, h']

@[simp] theorem fresh_wait (crowd : Crowd) (pc q : Nat) (captures : Captures) :
    (crowd.wait pc captures).Fresh q ↔ crowd.Fresh q := Iff.rfl

@[simp] theorem threads_empty (size : Nat) : (empty size).threads.toList = [] := rfl

@[simp] theorem threads_visit (crowd : Crowd) (pc : Nat) :
    (crowd.visit pc).threads = crowd.threads := rfl

@[simp] theorem threads_wait (crowd : Crowd) (pc : Nat) (captures : Captures) :
    (crowd.wait pc captures).threads.toList = crowd.threads.toList ++ [⟨pc, captures⟩] := by
  simp [wait]

section Add

variable {code : Array Instr} {pos : Nat} {more : Bool} {fuel : Nat} {crowd : Crowd} {pc : Nat}
  {captures : Captures}

theorem add_of_seen (h : ¬ crowd.Fresh pc) :
    crowd.add code pos more fuel pc captures = crowd := by
  cases fuel with
  | zero => rfl
  | succ fuel =>
      have hseen : crowd.seen.getD pc true = true := by simpa [Fresh] using h
      simp only [add, hseen, if_true]

theorem add_split (h : crowd.Fresh pc) {target : Nat} (hcode : code[pc]? = some (.split target)) :
    crowd.add code pos more (fuel + 1) pc captures =
      ((crowd.visit pc).add code pos more fuel (pc + 1) captures).add code pos more fuel target
        captures := by
  rw [add, show crowd.seen.getD pc true = false from h, hcode]
  rfl

theorem add_jump (h : crowd.Fresh pc) {target : Nat} (hcode : code[pc]? = some (.jump target)) :
    crowd.add code pos more (fuel + 1) pc captures =
      (crowd.visit pc).add code pos more fuel target captures := by
  rw [add, show crowd.seen.getD pc true = false from h, hcode]
  rfl

theorem add_mark (h : crowd.Fresh pc) {key : List Char} (hcode : code[pc]? = some (.mark key)) :
    crowd.add code pos more (fuel + 1) pc captures =
      (crowd.visit pc).add code pos more fuel (pc + 1) (captures.note key pos) := by
  rw [add, show crowd.seen.getD pc true = false from h, hcode]
  rfl

theorem add_char (h : crowd.Fresh pc) {c : Char} (hcode : code[pc]? = some (.char c)) :
    crowd.add code pos more (fuel + 1) pc captures = (crowd.visit pc).wait pc captures := by
  rw [add, show crowd.seen.getD pc true = false from h, hcode]
  rfl

theorem add_allowed (h : crowd.Fresh pc) {op : Operator} (hcode : code[pc]? = some (.allowed op)) :
    crowd.add code pos more (fuel + 1) pc captures = (crowd.visit pc).wait pc captures := by
  rw [add, show crowd.seen.getD pc true = false from h, hcode]
  rfl

theorem add_hex (h : crowd.Fresh pc) (hcode : code[pc]? = some .hex) :
    crowd.add code pos more (fuel + 1) pc captures = (crowd.visit pc).wait pc captures := by
  rw [add, show crowd.seen.getD pc true = false from h, hcode]
  rfl

theorem add_done (h : crowd.Fresh pc) (hcode : code[pc]? = some .done) :
    crowd.add code pos more (fuel + 1) pc captures = (crowd.visit pc).wait pc captures := by
  rw [add, show crowd.seen.getD pc true = false from h, hcode]
  rfl

theorem add_textEnd (h : crowd.Fresh pc) (hcode : code[pc]? = some .textEnd) :
    crowd.add code pos more (fuel + 1) pc captures =
      if more then crowd.visit pc
      else (crowd.visit pc).add code pos more fuel (pc + 1) captures := by
  rw [add, show crowd.seen.getD pc true = false from h, hcode]
  rfl

/-- Behind its start a text does not start again. -/
theorem threads_add_textStart (hcode : code[0]? = some .textStart) (hpos : pos ≠ 0) :
    (crowd.add code pos more fuel 0 captures).threads = crowd.threads := by
  cases fuel with
  | zero => rfl
  | succ fuel =>
      rw [add, hcode]
      cases crowd.seen.getD 0 true with
      | true => rfl
      | false => simp [hpos]

end Add
end Crowd

/-! ## Programs -/

/-- Instructions that stand in a program from an address on. -/
def Loaded (code : Array Instr) (base : Nat) (instrs : List Instr) : Prop :=
  ∀ i instr, instrs[i]? = some instr → code[base + i]? = some instr

namespace Loaded

variable {code : Array Instr} {base : Nat}

theorem head {instr : Instr} {rest : List Instr} (h : Loaded code base (instr :: rest)) :
    code[base]? = some instr :=
  h 0 instr rfl

theorem tail {instr : Instr} {rest : List Instr} (h : Loaded code base (instr :: rest)) :
    Loaded code (base + 1) rest := by
  intro i next hi
  have hnext := h (i + 1) next hi
  rwa [show base + (i + 1) = base + 1 + i by omega] at hnext

theorem left {first second : List Instr} (h : Loaded code base (first ++ second)) :
    Loaded code base first := by
  intro i instr hi
  apply h
  rw [List.getElem?_append_left (List.getElem?_eq_some_iff.mp hi).1]
  exact hi

theorem right {first second : List Instr} (h : Loaded code base (first ++ second)) :
    Loaded code (base + first.length) second := by
  intro i instr hi
  rw [Nat.add_assoc]
  apply h
  rw [List.getElem?_append_right (by omega)]
  simpa using hi

end Loaded

theorem lt_size_of_code {code : Array Instr} {pc : Nat} {instr : Instr}
    (h : code[pc]? = some instr) : pc < code.size :=
  (Array.getElem?_eq_some_iff.mp h).1

/-- The pattern of one plain variable: its value, and a comma before further values. -/
theorem segmentCode_simple (base : Nat) (name : List Char) :
    segmentCode base (.expression .simple [{ name }]) =
      [.split (base + 17), .split (base + 17), .mark name, .split (base + 12), .split (base + 7),
        .allowed .simple, .jump (base + 10), .char '%', .hex, .hex, .split (base + 12),
        .jump (base + 4), .mark name, .split (base + 15), .jump (base + 17), .char ',',
        .jump (base + 2)] := rfl

/-! ## The threads at a value -/

/-- Where a value may end: before a slash, or with the text. -/
inductive Ends (code : Array Instr) (pc : Nat) : Prop
  | slash : code[pc]? = some (.char '/') → Ends code pc
  | finish : code[pc]? = some .textEnd → code[pc + 1]? = some .done → Ends code pc

/-- The threads that wait where a value ends. -/
def waiting (code : Array Instr) (pc : Nat) (more : Bool) (captures : Captures) : List Thread :=
  match code[pc]? with
  | some .textEnd => if more then [] else [⟨pc + 1, captures⟩]
  | _ => [⟨pc, captures⟩]

/-- The threads that wait inside a value that started where `captures` say. -/
def valueThreads (code : Array Instr) (base : Nat) (name : List Char) (pos : Nat) (more : Bool)
    (captures : Captures) : List Thread :=
  ⟨base + 5, captures⟩ :: ⟨base + 7, captures⟩ ::
    waiting code (base + 17) more (captures.note name pos) ++
    [⟨base + 15, captures.note name pos⟩]

namespace Crowd

variable {code : Array Instr} {pos : Nat} {more : Bool} {fuel : Nat} {crowd : Crowd}
  {captures : Captures}

theorem add_end {pc : Nat} (hends : Ends code pc) (hfresh : ∀ q, pc ≤ q → q < code.size →
    crowd.Fresh q) :
    (crowd.add code pos more (fuel + 2) pc captures).threads.toList =
        crowd.threads.toList ++ waiting code pc more captures ∧
      ¬ (crowd.add code pos more (fuel + 2) pc captures).Fresh pc ∧
      ∀ q, q < pc → ((crowd.add code pos more (fuel + 2) pc captures).Fresh q ↔ crowd.Fresh q) := by
  unfold waiting
  cases hends with
  | slash hcode =>
      have hpc := hfresh pc (Nat.le_refl pc) (lt_size_of_code hcode)
      rw [add_char hpc hcode, hcode]
      refine ⟨by simp, by simp, fun q hq => ?_⟩
      simp [Nat.ne_of_lt hq]
  | finish hcode hdone =>
      have hpc := hfresh pc (Nat.le_refl pc) (lt_size_of_code hcode)
      have hnext : (crowd.visit pc).Fresh (pc + 1) := by
        simpa using hfresh (pc + 1) (by omega) (lt_size_of_code hdone)
      rw [add_textEnd hpc hcode, hcode]
      cases more with
      | true => exact ⟨by simp, by simp, fun q hq => by simp [Nat.ne_of_lt hq]⟩
      | false =>
          simp only [Bool.false_eq_true, if_false]
          rw [add_done hnext hdone]
          refine ⟨by simp, by simp, fun q hq => ?_⟩
          have h1 : q ≠ pc + 1 := by omega
          simp [Nat.ne_of_lt hq, h1]

variable {base : Nat} {name : List Char}

/-- Following the end of a value: its position is noted, and what comes next waits before the comma
that would bring a further value. -/
theorem add_valueEnd (hcode : Loaded code base (segmentCode base (.expression .simple [{ name }])))
    (hends : Ends code (base + 17))
    (hfresh : ∀ q, base + 12 ≤ q → q < code.size → crowd.Fresh q) :
    (crowd.add code pos more (fuel + 5) (base + 12) captures).threads.toList =
        crowd.threads.toList ++ waiting code (base + 17) more (captures.note name pos) ++
          [⟨base + 15, captures.note name pos⟩] ∧
      ¬ (crowd.add code pos more (fuel + 5) (base + 12) captures).Fresh (base + 17) := by
  rw [segmentCode_simple] at hcode
  have hmark := hcode 12 _ rfl
  have hsplit := hcode 13 _ rfl
  have hjump := hcode 14 _ rfl
  have hcomma := hcode 15 _ rfl
  have h12 := hfresh (base + 12) (by omega) (lt_size_of_code hmark)
  have h13 := hfresh (base + 13) (by omega) (lt_size_of_code hsplit)
  have h14 := hfresh (base + 14) (by omega) (lt_size_of_code hjump)
  have h15 := hfresh (base + 15) (by omega) (lt_size_of_code hcomma)
  rw [add_mark h12 hmark, add_split (by simpa using h13) hsplit,
    add_jump (by simpa using h14) hjump]
  generalize hstart : ((crowd.visit (base + 12)).visit (base + 13)).visit (base + 14) = start
  have hstartFresh : ∀ q, base + 17 ≤ q → q < code.size → start.Fresh q := by
    intro q hq hsize
    rw [← hstart]
    simp only [fresh_visit]
    exact ⟨by omega, by omega, by omega, hfresh q (by omega) hsize⟩
  obtain ⟨hthreads, hseen, hbelow⟩ :=
    @add_end code pos more fuel start (captures.note name pos) (base + 17) hends hstartFresh
  have hcommaFresh : (start.add code pos more (fuel + 2) (base + 17)
      (captures.note name pos)).Fresh (base + 15) := by
    rw [hbelow (base + 15) (by omega), ← hstart]
    simpa using h15
  rw [add_char hcommaFresh hcomma]
  refine ⟨?_, ?_⟩
  · rw [threads_wait, threads_visit, hthreads, ← hstart]
    rfl
  · simp [hseen]

/-- Following the start of a unit: a character as it is, or a percent sign. -/
theorem add_unit (hcode : Loaded code base (segmentCode base (.expression .simple [{ name }])))
    (h4 : crowd.Fresh (base + 4)) (h5 : crowd.Fresh (base + 5)) (h7 : crowd.Fresh (base + 7)) :
    crowd.add code pos more (fuel + 2) (base + 4) captures =
      ((((crowd.visit (base + 4)).visit (base + 5)).wait (base + 5) captures).visit
        (base + 7)).wait (base + 7) captures := by
  rw [segmentCode_simple] at hcode
  rw [add_split h4 (hcode 4 _ rfl), add_allowed (by simpa using h5) (hcode 5 _ rfl),
    add_char (by simpa using h7) (hcode 7 _ rfl)]

/-- The threads that an address leads to when nothing was followed before. -/
def arrive (code : Array Instr) (pos : Nat) (more : Bool) (pc : Nat) (captures : Captures) :
    Crowd :=
  (empty code.size).add code pos more (code.size + 1) pc captures

/-- The threads at the start of a value. -/
theorem threads_arrive_value
    (hcode : Loaded code base (segmentCode base (.expression .simple [{ name }])))
    (hends : Ends code (base + 17)) :
    (arrive code pos more base captures).threads.toList =
      valueThreads code base name pos more (captures.note name pos) := by
  have hall := hcode
  rw [segmentCode_simple] at hcode
  have hsize : base + 16 < code.size := lt_size_of_code (hcode 16 _ rfl)
  obtain ⟨fuel, hfuel⟩ : ∃ f, code.size + 1 = f + 9 := ⟨code.size - 8, by omega⟩
  rw [arrive, hfuel, add_split (by simp; omega) hcode.head,
    add_split (by simp; omega) (hcode 1 _ rfl), add_mark (by simp; omega) (hcode 2 _ rfl),
    add_split (by simp; omega) (hcode 3 _ rfl), add_unit hall (by simp; omega) (by simp; omega)
      (by simp; omega)]
  generalize hstart : Crowd.wait _ (base + 7) _ = start
  have hstartFresh : ∀ q, base + 12 ≤ q → q < code.size → start.Fresh q := by
    intro q hq hlt
    rw [← hstart]
    simp only [fresh_wait, fresh_visit, fresh_empty]
    omega
  obtain ⟨hthreads, hseen⟩ :=
    @add_valueEnd code pos more fuel start (captures.note name pos) base name hall hends hstartFresh
  -- both ways around the value lead to where it ends, which was followed already
  rw [add_of_seen hseen, add_of_seen hseen, hthreads, ← hstart]
  simp [valueThreads]

/-- The threads after a unit of a value are those at its start, with a later end. -/
theorem add_loop (hcode : Loaded code base (segmentCode base (.expression .simple [{ name }])))
    (hends : Ends code (base + 17)) (hfuel : code.size ≤ fuel)
    (hthreads : crowd.threads.toList = [])
    (hfresh : ∀ q, q < code.size → q ≠ base + 6 → crowd.Fresh q) :
    (crowd.add code pos more fuel (base + 10) captures).threads.toList =
      valueThreads code base name pos more captures := by
  have hall := hcode
  rw [segmentCode_simple] at hcode
  have hsize : base + 16 < code.size := lt_size_of_code (hcode 16 _ rfl)
  obtain ⟨fuel, rfl⟩ : ∃ f, fuel = f + 6 := ⟨fuel - 6, by omega⟩
  have at' : ∀ i, i < 17 → i ≠ 6 → crowd.Fresh (base + i) :=
    fun i hi hne => hfresh _ (by omega) (by omega)
  rw [add_split (at' 10 (by omega) (by omega)) (hcode 10 _ rfl),
    add_jump (by simpa using at' 11 (by omega) (by omega)) (hcode 11 _ rfl),
    add_unit hall (by simpa using at' 4 (by omega) (by omega))
      (by simpa using at' 5 (by omega) (by omega)) (by simpa using at' 7 (by omega) (by omega))]
  generalize hstart : Crowd.wait _ (base + 7) _ = start
  have hstartFresh : ∀ q, base + 12 ≤ q → q < code.size → start.Fresh q := by
    intro q hq hlt
    rw [← hstart]
    simp only [fresh_wait, fresh_visit]
    exact ⟨by omega, by omega, by omega, by omega, by omega, hfresh q hlt (by omega)⟩
  obtain ⟨hend, -⟩ :=
    @add_valueEnd code pos more fuel start captures base name hall hends hstartFresh
  rw [hend, ← hstart]
  simp [valueThreads, hthreads]

theorem threads_arrive_char {pc : Nat} {c : Char} (hcode : code[pc]? = some (.char c)) :
    (arrive code pos more pc captures).threads.toList = [⟨pc, captures⟩] := by
  rw [arrive, add_char (by simpa using lt_size_of_code hcode) hcode]
  simp

theorem threads_arrive_hex {pc : Nat} (hcode : code[pc]? = some .hex) :
    (arrive code pos more pc captures).threads.toList = [⟨pc, captures⟩] := by
  rw [arrive, add_hex (by simpa using lt_size_of_code hcode) hcode]
  simp

end Crowd

/-! ## One character -/

@[simp] theorem Instr.takes_char (d c : Char) : (Instr.char d).takes c = (c == d) := rfl

@[simp] theorem Instr.takes_allowed (op : Operator) (c : Char) :
    (Instr.allowed op).takes c = op.allows c := rfl

/-- A thread that cannot take a character. -/
def Idle (code : Array Instr) (c : Char) (t : Thread) : Prop :=
  ∃ instr, code[t.pc]? = some instr ∧ instr ≠ .done ∧ instr.takes c = false

theorem advance_idle {code : Array Instr} {c : Char} {pos : Nat} {more : Bool}
    {ts : List Thread} (hidle : ∀ t ∈ ts, Idle code c t) (rest : List Thread) (next : Crowd)
    (found : Option Captures) :
    advance code (some c) pos more (ts ++ rest) next found =
      advance code (some c) pos more rest next found := by
  induction ts with
  | nil => rfl
  | cons t ts ih =>
      obtain ⟨instr, hcode, hdone, htakes⟩ := hidle t List.mem_cons_self
      have hrest := ih fun t ht => hidle t (List.mem_cons_of_mem _ ht)
      rw [List.cons_append, advance, hcode]
      cases instr with
      | done => exact absurd rfl hdone
      | _ => simpa [htakes] using hrest

/-- When one thread alone can take a character, the others are gone after it. -/
theorem advance_one {code : Array Instr} {c : Char} {pos : Nat} {more : Bool}
    {before after : List Thread} {t : Thread} {instr : Instr} (hcode : code[t.pc]? = some instr)
    (htakes : instr.takes c = true) (hbefore : ∀ t ∈ before, Idle code c t)
    (hafter : ∀ t ∈ after, Idle code c t) (next : Crowd) :
    advance code (some c) pos more (before ++ t :: after) next none =
      (next.add code (pos + 1) more (code.size + 1) (t.pc + 1) t.captures, none) := by
  have hgone (crowd : Crowd) : advance code (some c) pos more after crowd none = (crowd, none) := by
    rw [← List.append_nil after, advance_idle hafter, advance]
  rw [advance_idle hbefore, advance, hcode]
  cases instr with
  | done => cases htakes
  | _ => simpa [htakes] using hgone _

theorem advance_done {code : Array Instr} {pos : Nat} {before after : List Thread} {t : Thread}
    (hcode : code[t.pc]? = some .done)
    (hbefore : ∀ t ∈ before, ∃ instr, code[t.pc]? = some instr ∧ instr ≠ .done) (next : Crowd) :
    (advance code none pos false (before ++ t :: after) next none).2 =
      some (Captures.update [] t.captures) := by
  induction before with
  | nil => simp [advance, hcode]
  | cons s before ih =>
      obtain ⟨instr, hs, hdone⟩ := hbefore s List.mem_cons_self
      have hrest := ih fun t ht => hbefore t (List.mem_cons_of_mem _ ht)
      rw [List.cons_append, advance, hs]
      cases instr with
      | done => exact absurd rfl hdone
      | _ => simpa using hrest

/-- The spelling of a value: characters that need no escape, and escapes. -/
inductive IsValue : List Char → Prop
  | nil : IsValue []
  | plain {c rest} : isUnreserved c = true → IsValue rest → IsValue (c :: rest)
  | escape {a b rest} : isHex a = true → isHex b = true → IsValue rest →
      IsValue ('%' :: a :: b :: rest)

theorem not_mark_of_isUnreserved {c : Char} (h : isUnreserved c = true) :
    c ≠ '%' ∧ c ≠ '/' ∧ c ≠ ',' := by
  refine ⟨?_, ?_, ?_⟩ <;> rintro rfl <;> exact absurd h (by decide)

/-- The threads at the end of a value cannot take a character of one. -/
theorem waiting_idle {code : Array Instr} {pc : Nat} {c : Char} (hends : Ends code pc)
    (hslash : c ≠ '/') (captures : Captures) :
    ∀ t ∈ waiting code pc true captures, Idle code c t := by
  intro t ht
  unfold waiting at ht
  cases hends with
  | slash hcode =>
      rw [hcode] at ht
      obtain rfl : t = ⟨pc, captures⟩ := by simpa using ht
      exact ⟨_, hcode, by simp, by simpa using hslash⟩
  | finish hcode _ =>
      rw [hcode] at ht
      simp at ht

section Run

variable {code : Array Instr} {pos : Nat} {crowd : Crowd}

/-- A step of a run in which one thread alone can take the character. -/
theorem run_one (before after : List Thread) {c : Char} {rest : List Char} {t : Thread}
    {instr : Instr}
    (hthreads : (crowd.add code pos (!rest.isEmpty) (code.size + 1) 0 []).threads.toList =
      before ++ t :: after)
    (hcode : code[t.pc]? = some instr) (htakes : instr.takes c = true)
    (hbefore : ∀ t ∈ before, Idle code c t) (hafter : ∀ t ∈ after, Idle code c t) :
    runFrom code pos crowd none (c :: rest) =
      runFrom code (pos + 1)
        (Crowd.arrive code (pos + 1) (!rest.isEmpty) (t.pc + 1) t.captures) none rest := by
  rw [runFrom]
  simp only [Option.isSome_none, Bool.and_false, Bool.false_eq_true, if_false, hthreads,
    advance_one hcode htakes hbefore hafter]
  rfl

variable (hstart : code[0]? = some .textStart)

include hstart

/-- Behind the start of a text, the threads that wait are all there is. -/
theorem run_step (before after : List Thread) (hpos : pos ≠ 0) {c : Char} {rest : List Char}
    {t : Thread} {instr : Instr} (hthreads : crowd.threads.toList = before ++ t :: after)
    (hcode : code[t.pc]? = some instr) (htakes : instr.takes c = true)
    (hbefore : ∀ t ∈ before, Idle code c t) (hafter : ∀ t ∈ after, Idle code c t) :
    runFrom code pos crowd none (c :: rest) =
      runFrom code (pos + 1)
        (Crowd.arrive code (pos + 1) (!rest.isEmpty) (t.pc + 1) t.captures) none rest := by
  apply run_one before after _ hcode htakes hbefore hafter
  rw [Crowd.threads_add_textStart hstart hpos, hthreads]

/-- A run ends with the first thread that is done. -/
theorem run_done (before : List Thread) (hpos : pos ≠ 0) {after : List Thread} {t : Thread}
    (hthreads : crowd.threads.toList = before ++ t :: after) (hcode : code[t.pc]? = some .done)
    (hbefore : ∀ t ∈ before, ∃ instr, code[t.pc]? = some instr ∧ instr ≠ .done) :
    runFrom code pos crowd none [] = some (Captures.update [] t.captures) := by
  rw [runFrom]
  simp only [Option.isSome_none, Bool.and_false, Bool.false_eq_true, if_false,
    Crowd.threads_add_textStart hstart hpos, hthreads]
  exact advance_done hcode hbefore _

/-! ## Values and literal text -/

/-- A literal is taken character by character, by one thread. -/
theorem run_literal (hpos : pos ≠ 0) {pc : Nat} {text : List Char}
    (hcode : Loaded code pc (literalCode text)) (rest : List Char) (captures : Captures) :
    runFrom code pos (Crowd.arrive code pos (!(text ++ rest).isEmpty) pc captures) none
        (text ++ rest) =
      runFrom code (pos + text.length)
        (Crowd.arrive code (pos + text.length) (!rest.isEmpty) (pc + text.length) captures) none
        rest := by
  induction text generalizing pos pc with
  | nil => rfl
  | cons c text ih =>
      have hchar := hcode.head
      rw [List.cons_append, run_step hstart [] [] hpos
        (Crowd.threads_arrive_char hchar) hchar (by simp) (by simp) (by simp),
        ih (by omega) hcode.tail]
      simp only [List.length_cons, Nat.add_assoc, Nat.add_comm 1]

variable {base : Nat} {name : List Char}
  (hcode : Loaded code base (segmentCode base (.expression .simple [{ name }])))
  (hends : Ends code (base + 17))

include hcode hends

/-- A character that needs no escape is taken as it is, and then the same threads wait. -/
theorem run_plain (hpos : pos ≠ 0) {c : Char} (hc : isUnreserved c = true) (rest : List Char)
    (captures : Captures)
    (hthreads : crowd.threads.toList = valueThreads code base name pos true captures) :
    ∃ after : Crowd,
      after.threads.toList = valueThreads code base name (pos + 1) (!rest.isEmpty) captures ∧
      runFrom code pos crowd none (c :: rest) = runFrom code (pos + 1) after none rest := by
  have hinstr := hcode
  rw [segmentCode_simple] at hinstr
  have hsize : base + 16 < code.size := lt_size_of_code (hinstr 16 _ rfl)
  obtain ⟨hpercent, hslash, hcomma⟩ := not_mark_of_isUnreserved hc
  have hafter : ∀ t ∈ ⟨base + 7, captures⟩ ::
      waiting code (base + 17) true (captures.note name pos) ++
        [⟨base + 15, captures.note name pos⟩], Idle code c t := by
    intro t ht
    rw [List.mem_append, List.mem_cons, List.mem_singleton] at ht
    rcases ht with (rfl | ht) | rfl
    · exact ⟨_, hinstr 7 _ rfl, by simp, by simpa using hpercent⟩
    · exact waiting_idle hends hslash _ t ht
    · exact ⟨_, hinstr 15 _ rfl, by simp, by simpa using hcomma⟩
  refine ⟨_, ?_, run_step hstart [] _ hpos hthreads (hinstr 5 _ rfl)
    (by simp [Operator.allows, hc]) (by simp) hafter⟩
  have hjump : Crowd.arrive code (pos + 1) (!rest.isEmpty) (base + 5 + 1) captures =
      ((Crowd.empty code.size).visit (base + 6)).add code (pos + 1) (!rest.isEmpty) code.size
        (base + 10) captures :=
    Crowd.add_jump (by simp; omega) (hinstr 6 _ rfl)
  rw [hjump]
  exact Crowd.add_loop hcode hends (Nat.le_refl _) rfl (by intro q hq hne; simp [hne, hq])

/-- An escape is taken by the thread at the percent sign, and then the same threads wait. -/
theorem run_escape (hpos : pos ≠ 0) {a b : Char} (ha : isHex a = true) (hb : isHex b = true)
    (rest : List Char) (captures : Captures)
    (hthreads : crowd.threads.toList = valueThreads code base name pos true captures) :
    ∃ after : Crowd,
      after.threads.toList = valueThreads code base name (pos + 3) (!rest.isEmpty) captures ∧
      runFrom code pos crowd none ('%' :: a :: b :: rest) =
        runFrom code (pos + 3) after none rest := by
  have hinstr := hcode
  rw [segmentCode_simple] at hinstr
  have hbefore : ∀ t ∈ [(⟨base + 5, captures⟩ : Thread)], Idle code '%' t := by
    intro t ht
    obtain rfl := List.mem_singleton.mp ht
    exact ⟨_, hinstr 5 _ rfl, by simp, by decide⟩
  have hafter : ∀ t ∈ waiting code (base + 17) true (captures.note name pos) ++
        [⟨base + 15, captures.note name pos⟩], Idle code '%' t := by
    intro t ht
    rw [List.mem_append, List.mem_singleton] at ht
    rcases ht with ht | rfl
    · exact waiting_idle hends (by decide) _ t ht
    · exact ⟨_, hinstr 15 _ rfl, by simp, by decide⟩
  rw [run_step hstart [⟨base + 5, captures⟩] _ hpos hthreads (hinstr 7 _ rfl)
      (by decide) hbefore hafter,
    run_step hstart [] [] (by omega)
      (Crowd.threads_arrive_hex (hinstr 8 _ rfl)) (hinstr 8 _ rfl) ha (by simp) (by simp),
    run_step hstart [] [] (by omega)
      (Crowd.threads_arrive_hex (hinstr 9 _ rfl)) (hinstr 9 _ rfl) hb (by simp) (by simp)]
  exact ⟨_, Crowd.add_loop hcode hends (Nat.le_succ _) rfl (by intro q hq _; simpa using hq), rfl⟩

/-- A value is taken unit by unit; after each of them the same threads wait. -/
theorem run_value (hpos : pos ≠ 0) {value : List Char} (hvalue : IsValue value)
    (rest : List Char) (captures : Captures)
    (hthreads : crowd.threads.toList =
      valueThreads code base name pos (!(value ++ rest).isEmpty) captures) :
    ∃ after : Crowd,
      after.threads.toList =
        valueThreads code base name (pos + value.length) (!rest.isEmpty) captures ∧
      runFrom code pos crowd none (value ++ rest) =
        runFrom code (pos + value.length) after none rest := by
  induction hvalue generalizing pos crowd with
  | nil => exact ⟨crowd, hthreads, rfl⟩
  | @plain c value hc _ ih =>
      obtain ⟨mid, hmid, hstep⟩ :=
        run_plain hstart hcode hends hpos hc (value ++ rest) captures hthreads
      obtain ⟨after, hafter, hrun⟩ := ih (by omega) hmid
      rw [List.length_cons, Nat.add_comm value.length 1, ← Nat.add_assoc]
      exact ⟨after, hafter, hstep.trans hrun⟩
  | @escape a b value ha hb _ ih =>
      obtain ⟨mid, hmid, hstep⟩ :=
        run_escape hstart hcode hends hpos ha hb (value ++ rest) captures hthreads
      obtain ⟨after, hafter, hrun⟩ := ih (by omega) hmid
      rw [List.length_cons, List.length_cons, List.length_cons,
        show pos + (value.length + 1 + 1 + 1) = pos + 3 + value.length by omega]
      exact ⟨after, hafter, hstep.trans hrun⟩

/-- A value that ends the text ends the run. -/
theorem run_last (hdone : code[base + 18]? = some .done) (hend : code[base + 17]? = some .textEnd)
    (hpos : pos ≠ 0) {value : List Char} (hvalue : IsValue value) (captures : Captures) :
    runFrom code pos (Crowd.arrive code pos (!value.isEmpty) base captures) none value =
      some (Captures.update []
        ((captures.note name pos).note name (pos + value.length))) := by
  have hinstr := hcode
  rw [segmentCode_simple] at hinstr
  obtain ⟨after, hafter, hrun⟩ := run_value hstart hcode hends hpos hvalue []
    (captures.note name pos) (Crowd.threads_arrive_value hcode hends)
  rw [List.append_nil] at hrun
  simp only [valueThreads, waiting, hend, List.isEmpty_nil, Bool.not_true, Bool.false_eq_true,
    if_false] at hafter
  rw [hrun]
  refine run_done hstart [_, _] (by omega) hafter hdone ?_
  intro t ht
  rcases List.mem_cons.mp ht with rfl | ht
  · exact ⟨_, hinstr 5 _ rfl, by simp⟩
  · obtain rfl := List.mem_singleton.mp ht
    exact ⟨_, hinstr 7 _ rfl, by simp⟩

/-- After a value that ends at a slash, the literal alone goes on. -/
theorem run_inner (hslash : code[base + 17]? = some (.char '/')) (hpos : pos ≠ 0)
    {value : List Char} (hvalue : IsValue value) (rest : List Char) (captures : Captures) :
    runFrom code pos (Crowd.arrive code pos (!(value ++ '/' :: rest).isEmpty) base captures) none
        (value ++ '/' :: rest) =
      runFrom code (pos + value.length)
        (Crowd.arrive code (pos + value.length) true (base + 17)
          ((captures.note name pos).note name (pos + value.length))) none ('/' :: rest) := by
  have hinstr := hcode
  rw [segmentCode_simple] at hinstr
  obtain ⟨after, hafter, hrun⟩ := run_value hstart hcode hends hpos hvalue ('/' :: rest)
    (captures.note name pos) (Crowd.threads_arrive_value hcode hends)
  simp only [valueThreads, waiting, hslash] at hafter
  have hbefore : ∀ t ∈ [(⟨base + 5, captures.note name pos⟩ : Thread),
      ⟨base + 7, captures.note name pos⟩], Idle code '/' t := by
    intro t ht
    rcases List.mem_cons.mp ht with rfl | ht
    · exact ⟨_, hinstr 5 _ rfl, by simp, by decide⟩
    · obtain rfl := List.mem_singleton.mp ht
      exact ⟨_, hinstr 7 _ rfl, by simp, by decide⟩
  have hcomma : ∀ t ∈ [(⟨base + 15, (captures.note name pos).note name
      (pos + value.length)⟩ : Thread)], Idle code '/' t := by
    intro t ht
    obtain rfl := List.mem_singleton.mp ht
    exact ⟨_, hinstr 15 _ rfl, by simp, by decide⟩
  -- whether the other threads wait too or not, the slash leads to the same place
  rw [hrun, run_step hstart [_, _] _ (by omega) hafter hslash (by decide) hbefore hcomma,
    run_step hstart [] [] (by omega) (Crowd.threads_arrive_char hslash)
      hslash (by decide) (by simp) (by simp)]

end Run

/-! ## Templates -/

/-- Templates of literal text and plain variables, each of which ends at a slash or with the
template. -/
inductive Delimited : List Segment → Prop
  | nil : Delimited []
  | literal {text rest} : Delimited rest → Delimited (.literal text :: rest)
  | last {name} : Delimited [.expression .simple [{ name }]]
  | inner {name text rest} : Delimited (.literal ('/' :: text) :: rest) →
      Delimited (.expression .simple [{ name }] :: .literal ('/' :: text) :: rest)

/-- The text of a template whose variables are spelled as given. -/
def spelling (value : List Char → List Char) : List Segment → List Char
  | [] => []
  | .literal text :: rest => text ++ spelling value rest
  | .expression _ vars :: rest => vars.flatMap (fun v => value v.name) ++ spelling value rest

/-- The positions that are noted on the way through that text. -/
def notes (value : List Char → List Char) (pos : Nat) (captures : Captures) :
    List Segment → Captures
  | [] => captures
  | .literal text :: rest => notes value (pos + text.length) captures rest
  | .expression _ vars :: rest =>
    let (pos, captures) := vars.foldl (fun (pos, captures) v =>
      let stop := pos + (value v.name).length
      (stop, (captures.note v.name pos).note v.name stop)) (pos, captures)
    notes value pos captures rest

/-- What is noted when all of a delimited template was taken. -/
theorem run_segments {code : Array Instr} (hstart : code[0]? = some .textStart)
    {value : List Char → List Char} (hvalue : ∀ name, IsValue (value name))
    {segments : List Segment} (hdelimited : Delimited segments) {base pos : Nat}
    (hcode : Loaded code base (segmentsCode base segments ++ [.textEnd, .done])) (hpos : pos ≠ 0)
    (captures : Captures) :
    runFrom code pos
        (Crowd.arrive code pos (!(spelling value segments).isEmpty) base captures) none
        (spelling value segments) =
      some (Captures.update [] (notes value pos captures segments)) := by
  induction hdelimited generalizing base pos captures with
  | nil =>
      have hend := hcode.head
      have hdone := hcode.tail.head
      have hthreads : (Crowd.arrive code pos false base captures).threads.toList =
          [⟨base + 1, captures⟩] := by
        rw [Crowd.arrive, Crowd.add_textEnd (by simpa using lt_size_of_code hend) hend]
        obtain ⟨size, hsize⟩ : ∃ n, code.size = n + 1 :=
          ⟨code.size - 1, by have := lt_size_of_code hend; omega⟩
        simp only [Bool.false_eq_true, if_false]
        rw [hsize, Crowd.add_done (by simpa [hsize] using lt_size_of_code hdone) hdone]
        simp
      exact run_done hstart [] hpos hthreads hdone (by simp)
  | @literal text rest _ ih =>
      simp only [segmentsCode, segmentCode, List.append_assoc] at hcode
      have hrest := hcode.right
      rw [spelling, run_literal hstart hpos hcode.left]
      simp only [literalCode, List.length_map] at hrest
      exact ih hrest (by omega) captures
  | @last name =>
      have hexpr := hcode.left.left
      have htail : Loaded code (base + 17) [.textEnd, .done] := hcode.right
      have hspelling : spelling value [.expression .simple [{ name }]] = value name := by
        simp [spelling]
      rw [hspelling]
      exact run_last hstart hexpr (.finish htail.head htail.tail.head) htail.tail.head htail.head
        hpos (hvalue name) captures
  | @inner name text rest _ ih =>
      have hall := hcode
      rw [segmentsCode, List.append_assoc] at hall
      have htail : Loaded code (base + 17)
          (segmentsCode (base + 17) (.literal ('/' :: text) :: rest) ++ [.textEnd, .done]) :=
        hall.right
      have hspelling : spelling value
          (.expression .simple [{ name }] :: .literal ('/' :: text) :: rest) =
            value name ++ '/' :: (text ++ spelling value rest) := by
        simp [spelling]
      rw [hspelling, run_inner hstart hall.left (.slash htail.head) htail.head hpos (hvalue name)]
      exact ih htail (by omega) _

/-- **A path that a delimited template can make is matched, value by value.** -/
theorem captures?_of_delimited (c : Char) (text : List Char) {rest : List Segment}
    (hdelimited : Delimited rest) {value : List Char → List Char}
    (hvalue : ∀ name, IsValue (value name)) :
    let segments := .literal (c :: text) :: rest
    captures? ⟨segments⟩ (spelling value segments) =
      some (Captures.update [] (notes value 0 [] segments)) := by
  intro segments
  have hloaded : Loaded (program ⟨segments⟩).toArray 0 (program ⟨segments⟩) := by
    intro i instr hi
    simpa using hi
  unfold captures?
  generalize (program ⟨segments⟩).toArray = code at hloaded
  have hcode : Loaded code 1 (literalCode (c :: text) ++
      (segmentsCode (1 + (literalCode (c :: text)).length) rest ++ [.textEnd, .done])) := by
    simpa [program, segments, segmentsCode, segmentCode] using hloaded.tail
  have hstart : code[0]? = some .textStart := hloaded.head
  have hfirst : code[1]? = some (.char c) := hcode.head
  have hthreads (more : Bool) : ((Crowd.empty code.size).add code 0 more (code.size + 1) 0
      []).threads.toList = [⟨1, []⟩] := by
    obtain ⟨size, hsize⟩ : ∃ n, code.size = n + 1 :=
      ⟨code.size - 1, by have := lt_size_of_code hfirst; omega⟩
    have hfresh : (Crowd.empty code.size).Fresh 0 := by simp [hsize]
    rw [Crowd.add, show (Crowd.empty code.size).seen.getD 0 true = false from hfresh, hstart]
    show (((Crowd.empty code.size).visit 0).add code 0 more code.size 1 []).threads.toList = _
    rw [hsize, Crowd.add_char (by simpa [hsize] using lt_size_of_code hfirst) hfirst]
    simp
  show runFrom code 0 (.empty code.size) none (c :: text ++ spelling value rest) = _
  rw [List.cons_append, run_one [] [] (hthreads _) hfirst
    (by simp) (by simp) (by simp), run_literal hstart (by omega) hcode.left.tail]
  have hrest := hcode.right
  simp only [literalCode, List.length_map, List.length_cons] at hrest
  have hrun := run_segments hstart hvalue hdelimited hrest (Nat.succ_ne_zero text.length) []
  rw [show 0 + 1 + text.length = text.length + 1 by omega,
    show 1 + 1 + text.length = 1 + (text.length + 1) by omega, hrun]
  simp [notes, segments]

end ReviewQueue.PathTemplate
