import Mathlib.Algebra.Group.Nat.Defs
import Mathlib.Data.List.Basic
import Mathlib.Data.List.Infix

/-!
# A serial port

What a program sees of a device that sends bytes. They arrive in chunks, one for each read of the
device, and where one chunk ends and the next begins is not up to the program. When there are no
more chunks every further read fails: that is a timeout as well as an error, at whatever byte.

There are two ways to read. `readUntil` takes whole chunks into a buffer until a delimiter is in
it, so the buffer may hold bytes behind the delimiter (`readUntil_append`). `readExact` takes so
many bytes and leaves the rest of the last chunk, so it depends on the bytes to come and not on
their chunks (`readExact_append`).
-/

namespace Serial

/-- `incoming` is what the coming reads of the device deliver. No device delivers `2 ^ 63` bytes.
`refuses n` says that a write fails when `n` have gone through. -/
structure Port where
  incoming : List (List UInt8)
  sent : List (List UInt8) := []
  refuses : Nat → Bool := fun _ => false
  bound : incoming.flatten.length < 2 ^ 63

namespace Port

/-- The bytes to come. -/
def stream (p : Port) : List UInt8 := p.incoming.flatten

/-- The same bytes in one read. -/
def inOneRead (p : Port) : Port :=
  { p with incoming := [p.stream], bound := by simpa [stream] using p.bound }

@[simp] theorem stream_inOneRead (p : Port) : p.inOneRead.stream = p.stream := by
  simp [inOneRead, stream]

/-- No write fails. -/
def Accepts (p : Port) : Prop := ∀ n, p.refuses n = false

theorem length_stream_lt (p : Port) : p.stream.length < 2 ^ 63 := p.bound

/-- The port when only `rest` of its chunks is left. -/
def leave (p : Port) (rest : List (List UInt8))
    (h : rest.flatten.length ≤ p.incoming.flatten.length) : Port :=
  { p with incoming := rest, bound := Nat.lt_of_le_of_lt h p.bound }

end Port

/-- A computation that uses a port. -/
def SerialM (α : Type) : Type := Port → α × Port

namespace SerialM

variable {α β : Type}

def result (m : SerialM α) (p : Port) : α := (m p).1

/-- The port that a computation leaves. -/
def after (m : SerialM α) (p : Port) : Port := (m p).2

instance : Monad SerialM where
  pure a := fun p => (a, p)
  bind m f := fun p =>
    let (a, p) := m p
    f a p

@[simp] theorem result_pure (a : α) (p : Port) : (pure a : SerialM α).result p = a := rfl

@[simp] theorem after_pure (a : α) (p : Port) : (pure a : SerialM α).after p = p := rfl

@[simp] theorem result_bind (m : SerialM α) (f : α → SerialM β) (p : Port) :
    (m >>= f).result p = (f (m.result p)).result (m.after p) := rfl

@[simp] theorem after_bind (m : SerialM α) (f : α → SerialM β) (p : Port) :
    (m >>= f).after p = (f (m.result p)).after (m.after p) := rfl

theorem result_ite (c : Prop) [Decidable c] (m m' : SerialM α) (p : Port) :
    (if c then m else m').result p = if c then m.result p else m'.result p :=
  apply_ite (result · p) c m m'

end SerialM

open SerialM

/-! ## Writing -/

/-- Send the bytes; says whether they went through. -/
def write (bytes : List UInt8) : SerialM Bool := fun p =>
  if p.refuses p.sent.length then (false, p) else (true, { p with sent := p.sent ++ [bytes] })

section Write

variable {p : Port} {bytes : List UInt8}

theorem result_write : (write bytes).result p = !p.refuses p.sent.length := by
  simp only [result, write]
  cases p.refuses p.sent.length <;> rfl

theorem incoming_write : ((write bytes).after p).incoming = p.incoming := by
  simp only [after, write]
  split <;> rfl

@[simp] theorem stream_write : ((write bytes).after p).stream = p.stream :=
  congrArg List.flatten incoming_write

@[simp] theorem refuses_write : ((write bytes).after p).refuses = p.refuses := by
  simp only [after, write]
  split <;> rfl

theorem Port.Accepts.result_write (h : p.Accepts) : (write bytes).result p = true := by
  rw [Serial.result_write, h]
  rfl

theorem Port.Accepts.sent_write (h : p.Accepts) :
    ((write bytes).after p).sent = p.sent ++ [bytes] := by
  simp [write, after, h p.sent.length]

theorem Port.Accepts.write (h : p.Accepts) : ((write bytes).after p).Accepts := by
  intro n
  rw [refuses_write]
  exact h n

end Write

/-! ## Reading until a delimiter -/

/-- Take chunks until the delimiter is in the buffer. -/
def gather (delim : List UInt8) :
    List UInt8 → List (List UInt8) → List UInt8 × List (List UInt8)
  | buf, [] => (buf, [])
  | buf, c :: cs => if delim <:+: buf then (buf, c :: cs) else gather delim (buf ++ c) cs

theorem gather_found {delim buf : List UInt8} (h : delim <:+: buf) (chunks : List (List UInt8)) :
    gather delim buf chunks = (buf, chunks) := by
  cases chunks with
  | nil => rfl
  | cons c cs => rw [gather, if_pos h]

theorem gather_append (delim buf : List UInt8) (chunks : List (List UInt8)) :
    (gather delim buf chunks).1 ++ (gather delim buf chunks).2.flatten = buf ++ chunks.flatten := by
  induction chunks generalizing buf with
  | nil => rfl
  | cons c cs ih =>
      rw [gather]
      split
      · rfl
      · rw [ih, List.flatten_cons, List.append_assoc]

theorem gather_found_or_all (delim buf : List UInt8) (chunks : List (List UInt8)) :
    delim <:+: (gather delim buf chunks).1 ∨ (gather delim buf chunks).2 = [] := by
  induction chunks generalizing buf with
  | nil => exact .inr rfl
  | cons c cs ih =>
      rw [gather]
      split
      · next hfound => exact .inl hfound
      · exact ih (buf ++ c)

theorem length_gather_le (delim buf : List UInt8) (chunks : List (List UInt8)) :
    (gather delim buf chunks).2.flatten.length ≤ chunks.flatten.length := by
  induction chunks generalizing buf with
  | nil => simp [gather]
  | cons c cs ih =>
      rw [gather]
      split
      · exact le_rfl
      · have := ih (buf ++ c)
        rw [List.flatten_cons, List.length_append]
        omega

/-- The chunks that are taken bring the delimiter with the last one of them only. -/
theorem gather_split (delim buf : List UInt8) (chunks : List (List UInt8)) :
    ∃ taken, chunks = taken ++ (gather delim buf chunks).2
      ∧ (gather delim buf chunks).1 = buf ++ taken.flatten
      ∧ ∀ cs c, taken = cs ++ [c] → ¬ delim <:+: buf ++ cs.flatten := by
  induction chunks generalizing buf with
  | nil => exact ⟨[], by simp [gather]⟩
  | cons c cs ih =>
      rw [gather]
      split
      · exact ⟨[], by simp⟩
      · next hnot =>
          obtain ⟨taken, htaken, hbuf, hlast⟩ := ih (buf ++ c)
          refine ⟨c :: taken, ?_, ?_, ?_⟩
          · rw [List.cons_append, ← htaken]
          · rw [hbuf, List.flatten_cons, List.append_assoc]
          · intro ds d hds
            cases ds with
            | nil => simpa using hnot
            | cons e es =>
                rw [List.cons_append, List.cons.injEq] at hds
                obtain ⟨rfl, hes⟩ := hds
                rw [List.flatten_cons, ← List.append_assoc]
                exact hlast es d hes

/-- Says whether the delimiter came, and what is in the buffer then. -/
def readUntil (delim buf : List UInt8) : SerialM (Bool × List UInt8) := fun p =>
  let taken := gather delim buf p.incoming
  ((decide (delim <:+: taken.1), taken.1), p.leave taken.2 (length_gather_le delim buf p.incoming))

section Until

variable {p : Port} {delim buf : List UInt8}

@[simp] theorem sent_readUntil : ((readUntil delim buf).after p).sent = p.sent := rfl

theorem Port.Accepts.readUntil (h : p.Accepts) :
    ((readUntil delim buf).after p).Accepts := h

/-- A write makes no difference to what is read. -/
@[simp] theorem result_readUntil_write (bytes : List UInt8) :
    (readUntil delim buf).result ((write bytes).after p) = (readUntil delim buf).result p := by
  simp only [readUntil, result, incoming_write]

@[simp] theorem stream_readUntil_write (bytes : List UInt8) :
    ((readUntil delim buf).after ((write bytes).after p)).stream
      = ((readUntil delim buf).after p).stream :=
  congrArg (fun chunks => (gather delim buf chunks).2.flatten) incoming_write

/-- What is in the buffer and what is still to come is what there was. -/
theorem readUntil_append :
    ((readUntil delim buf).result p).2 ++ ((readUntil delim buf).after p).stream
      = buf ++ p.stream :=
  gather_append delim buf p.incoming

theorem length_readUntil :
    ((readUntil delim buf).result p).2.length + ((readUntil delim buf).after p).stream.length
      = buf.length + p.stream.length := by
  rw [← List.length_append, ← List.length_append, readUntil_append]

theorem readUntil_found_iff :
    ((readUntil delim buf).result p).1 = true ↔ delim <:+: ((readUntil delim buf).result p).2 :=
  decide_eq_true_iff

/-- **The delimiter is found when it is to come**, in whatever chunks. -/
theorem readUntil_found (h : delim <:+: buf ++ p.stream) :
    ((readUntil delim buf).result p).1 = true := by
  rw [readUntil_found_iff]
  rcases gather_found_or_all delim buf p.incoming with hfound | hall
  · exact hfound
  · have hstream : ((readUntil delim buf).after p).stream = [] :=
      congrArg List.flatten hall
    have happend := @readUntil_append p delim buf
    rw [hstream, List.append_nil] at happend
    rwa [happend]

end Until

/-! ## Reading so many bytes -/

/-- The chunks behind the first `n` bytes. -/
def dropBytes : Nat → List (List UInt8) → List (List UInt8)
  | _, [] => []
  | n, c :: cs => if c.length ≤ n then dropBytes (n - c.length) cs else c.drop n :: cs

@[simp] theorem flatten_dropBytes (n : Nat) (chunks : List (List UInt8)) :
    (dropBytes n chunks).flatten = chunks.flatten.drop n := by
  induction chunks generalizing n with
  | nil => simp [dropBytes]
  | cons c cs ih =>
      rw [dropBytes, List.flatten_cons, List.drop_append]
      split
      · next hle => rw [ih, List.drop_eq_nil_of_le hle, List.nil_append]
      · next hgt =>
          have hsub : n - c.length = 0 := by omega
          rw [List.flatten_cons, hsub, List.drop_zero]

/-- Fails when the device ends before. -/
def readExact (n : Nat) : SerialM (Option (List UInt8)) := fun p =>
  if n ≤ p.stream.length then
    (some (p.stream.take n), p.leave (dropBytes n p.incoming) (by simp))
  else (none, p.leave [] (Nat.zero_le _))

section Exact

variable {p : Port} {n : Nat}

theorem result_readExact :
    (readExact n).result p = if n ≤ p.stream.length then some (p.stream.take n) else none := by
  simp only [result, readExact]
  split <;> rfl

theorem stream_readExact (h : n ≤ p.stream.length) :
    ((readExact n).after p).stream = p.stream.drop n := by
  simp only [after, readExact, if_pos h]
  exact flatten_dropBytes n p.incoming

/-- **An exact read depends on the bytes to come only.** -/
theorem readExact_append {bytes rest : List UInt8} (hstream : p.stream = bytes ++ rest)
    (hn : bytes.length = n) :
    (readExact n).result p = some bytes ∧ ((readExact n).after p).stream = rest := by
  have hle : n ≤ p.stream.length := by
    rw [hstream, List.length_append]
    omega
  rw [result_readExact, if_pos hle, stream_readExact hle, hstream, List.take_left' hn,
    List.drop_left' hn]
  exact ⟨rfl, rfl⟩

end Exact

end Serial
