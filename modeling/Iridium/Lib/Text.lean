import Mathlib.Algebra.Group.Nat.Defs
import Mathlib.Data.List.Basic
import Mathlib.Data.List.Infix

/-!
# Strings and streams of text

The character strings of C++ as byte lists, with positions and sizes that are `size_t` values: a
search that fails returns `npos`, the largest of them, and arithmetic on positions wraps around.

`IStream` is an input stream over a buffer, read line by line. A stream that has met its end is no
longer good, and a `getline` on it leaves the line as it is.
-/

namespace Text

def ascii (s : String) : List UInt8 := s.toList.map fun c => UInt8.ofNat c.toNat

def cr : UInt8 := 0x0D

def lf : UInt8 := 0x0A

def comma : UInt8 := 0x2C

/-! ## Positions -/

/-- `std::string::npos`. -/
def npos : Nat := 2 ^ 64 - 1

/-- The sum of two `size_t` values. -/
def sizeAdd (a b : Nat) : Nat := (a + b) % 2 ^ 64

/-- The difference of two `size_t` values. -/
def sizeSub (a b : Nat) : Nat := (a + (2 ^ 64 - b)) % 2 ^ 64

theorem sizeAdd_of_lt {a b : Nat} (h : a + b < 2 ^ 64) : sizeAdd a b = a + b :=
  Nat.mod_eq_of_lt h

theorem sizeSub_of_le {a b : Nat} (hle : b ≤ a) (hlt : a < 2 ^ 64) : sizeSub a b = a - b := by
  have hsum : a + (2 ^ 64 - b) = (a - b) + 2 ^ 64 := by omega
  rw [sizeSub, hsum, Nat.add_mod_right]
  exact Nat.mod_eq_of_lt (by omega)

/-- `find_first_of`, for one character. -/
def findFirstOf (line : List UInt8) (c : UInt8) (pos : Nat) : Nat :=
  if c ∈ line.drop pos then pos + (line.drop pos).idxOf c else npos

def indexOf (text : List UInt8) : List UInt8 → Option Nat
  | [] => if text = [] then some 0 else none
  | c :: cs => if text <+: c :: cs then some 0 else (indexOf text cs).map (· + 1)

/-- `find`, for a string and from the start. -/
def find (line text : List UInt8) : Nat := (indexOf text line).getD npos

section Search

variable {line text : List UInt8} {c : UInt8} {pos : Nat}

theorem findFirstOf_bounds (h : c ∈ line.drop pos) :
    pos ≤ findFirstOf line c pos ∧ findFirstOf line c pos < line.length := by
  have hidx := List.idxOf_lt_length_of_mem h
  rw [List.length_drop] at hidx
  rw [findFirstOf, if_pos h]
  omega

theorem findFirstOf_npos (h : c ∉ line.drop pos) : findFirstOf line c pos = npos := if_neg h

/-- The first character of its kind behind a text without it. -/
theorem findFirstOf_append {rest : List UInt8} (hline : line.drop pos = text ++ c :: rest)
    (htext : c ∉ text) : findFirstOf line c pos = pos + text.length := by
  have hmem : c ∈ line.drop pos := by simp [hline]
  rw [findFirstOf, if_pos hmem, hline, List.idxOf_append_of_notMem htext, List.idxOf_cons_self,
    Nat.add_zero]

theorem indexOf_le {i : Nat} (h : indexOf text line = some i) : i + text.length ≤ line.length := by
  induction line generalizing i with
  | nil =>
      rw [indexOf] at h
      split at h
      · next hnil =>
          cases h
          simp [hnil]
      · cases h
  | cons d ds ih =>
      rw [indexOf] at h
      split at h
      · next hstart =>
          cases h
          simpa using hstart.length_le
      · obtain ⟨j, hj, rfl⟩ := Option.map_eq_some_iff.mp h
        have := ih hj
        rw [List.length_cons]
        omega

/-- A string is found inside the line or not at all. -/
theorem find_bounds (line text : List UInt8) :
    find line text = npos ∨ find line text + text.length ≤ line.length := by
  rw [find]
  cases h : indexOf text line with
  | none => exact .inl rfl
  | some i => exact .inr (indexOf_le h)

theorem find_start (hstart : text <+: line) : find line text = 0 := by
  rw [find]
  cases line with
  | nil => simp [indexOf, List.prefix_nil.mp hstart]
  | cons d ds => simp [indexOf, hstart]

theorem find_npos (h : ¬ text <:+: line) : find line text = npos := by
  have hnone : indexOf text line = none := by
    induction line with
    | nil =>
        rw [indexOf, if_neg]
        rintro rfl
        exact h List.infix_rfl
    | cons d ds ih =>
        have hstart : ¬ text <+: d :: ds := fun hp => h hp.isInfix
        rw [indexOf, if_neg hstart, ih fun hin => h (hin.trans (List.suffix_cons d ds).isInfix)]
        rfl
  rw [find, hnone]
  rfl

end Search

/-- What begins a text and holds its first `c` holds all before it. -/
theorem split_at_first {c : UInt8} {front rest q tail : List UInt8} (hfront : c ∉ front)
    (hq : c ∈ q) (h : q ++ tail = front ++ c :: rest) :
    ∃ r, q = front ++ c :: r ∧ r ++ tail = rest := by
  rcases List.append_eq_append_iff.mp h with ⟨a, ha, -⟩ | ⟨a, ha, hrest⟩
  · exact absurd (ha ▸ List.mem_append_left a hq) hfront
  · cases a with
    | nil =>
        rw [List.append_nil] at ha
        exact absurd (ha ▸ hq) hfront
    | cons d r =>
        rw [List.cons_append, List.cons.injEq] at hrest
        obtain ⟨rfl, hrest⟩ := hrest
        exact ⟨r, ha, hrest.symm⟩

/-! ## Lines -/

structure IStream where
  buf : List UInt8
  good : Bool := true
  deriving DecidableEq, Repr

/-- `std::getline`: the line, which was `line` before, and the stream behind it. -/
def IStream.getline (s : IStream) (line : List UInt8) : List UInt8 × IStream :=
  if s.good then
    if lf ∈ s.buf then
      (s.buf.takeWhile (· ≠ lf), { s with buf := (s.buf.dropWhile (· ≠ lf)).tail })
    else (s.buf, ⟨[], false⟩)
  else (line, s)

theorem getline_append {l : List UInt8} (hl : lf ∉ l) (rest line : List UInt8) :
    IStream.getline ⟨l ++ lf :: rest, true⟩ line = (l, ⟨rest, true⟩) := by
  have hall : ∀ c ∈ l, decide (c ≠ lf) = true := by
    intro c hc
    have hne : c ≠ lf := ne_of_mem_of_not_mem hc hl
    simpa using hne
  have hmem : lf ∈ l ++ lf :: rest := by simp
  rw [IStream.getline, if_pos rfl, if_pos hmem, List.takeWhile_append_of_pos hall,
    List.dropWhile_append_of_pos hall]
  simp

/-- A text splits at its first line in one way. -/
theorem line_inj {l l' rest rest' : List UInt8} (hl : lf ∉ l) (hl' : lf ∉ l')
    (h : l ++ lf :: rest = l' ++ lf :: rest') : l = l' ∧ rest = rest' := by
  have hread := congrArg (fun buf => IStream.getline ⟨buf, true⟩ []) h
  simpa [getline_append hl, getline_append hl'] using hread

/-- A line is no longer than what it is read from and what it was before. -/
theorem length_getline_le {s : IStream} {line : List UInt8} {n : Nat} (hbuf : s.buf.length ≤ n)
    (hline : line.length ≤ n) :
    (s.getline line).1.length ≤ n ∧ (s.getline line).2.buf.length ≤ n := by
  have htake := (List.takeWhile_prefix (l := s.buf) (· ≠ lf)).length_le
  have hdrop := (List.dropWhile_suffix (l := s.buf) (· ≠ lf)).length_le
  unfold IStream.getline
  split
  · split
    · dsimp only
      rw [List.length_tail]
      constructor <;> omega
    · exact ⟨hbuf, Nat.zero_le n⟩
  · exact ⟨hline, hbuf⟩

/-- A delimiter that ends a line occurs at the end of the first line or behind it. -/
theorem infix_line {d l rest : List UInt8} (hd : lf ∉ d) (hl : lf ∉ l)
    (h : d ++ [lf] <:+: l ++ lf :: rest) : d <:+ l ∨ d ++ [lf] <:+: rest := by
  obtain ⟨before, behind, h⟩ := h
  rw [List.append_assoc, List.append_assoc] at h
  by_cases hbefore : lf ∈ before
  · right
    -- the first line ends inside `before`
    obtain ⟨front, back, rfl, hfront⟩ := List.eq_append_cons_of_mem hbefore
    rw [List.append_assoc, List.cons_append] at h
    obtain ⟨-, hrest⟩ := line_inj hfront hl h
    exact ⟨back, behind, by simpa using hrest⟩
  · left
    have hfront : lf ∉ before ++ d := by simp [hbefore, hd]
    rw [← List.append_assoc, List.singleton_append] at h
    obtain ⟨hline, -⟩ := line_inj hfront hl h
    exact ⟨before, hline⟩

/-- What begins a text of lines and holds such a delimiter holds the first line. -/
theorem first_line {d l rest q : List UInt8} (hd : lf ∉ d) (hl : lf ∉ l)
    (hq : q <+: l ++ lf :: rest) (h : d ++ [lf] <:+: q) :
    ∃ r, q = l ++ lf :: r ∧ r <+: rest ∧ (d <:+ l ∨ d ++ [lf] <:+: r) := by
  obtain ⟨missing, hmissing⟩ := hq
  have hmem : lf ∈ q := h.subset (by simp)
  obtain ⟨r, rfl, hrest⟩ := split_at_first hl hmem hmissing
  exact ⟨r, rfl, ⟨missing, hrest⟩, infix_line hd hl h⟩

end Text
