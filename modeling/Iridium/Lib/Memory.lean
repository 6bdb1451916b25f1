import Iridium.Lib.ByteOrder

/-!
# Reading through a pointer

A `Memory` is what a raw pointer can see: a byte at *every* offset, those that lie past the buffer
the pointer belongs to included. A `ReadM` computation reads it and logs each block it touches, so
that "reads nothing outside the buffer" is a statement about the log (`InBounds`) and not about
the result.

`Memory.ofBuffer buf past` is the memory seen by a pointer to `buf`, with arbitrary bytes `past`
behind it. Whatever is proved for every `past` holds whatever lies behind the buffer.
-/

/-- The byte at every offset from a pointer. -/
abbrev Memory := Nat → UInt8

namespace Memory

/-- The `len` bytes from `addr` on. -/
def block (mem : Memory) (addr len : Nat) : List UInt8 := (List.range' addr len).map mem

/-- What a pointer to `buf` sees when `past` is what lies behind it. -/
def ofBuffer (buf : List UInt8) (past : Memory) : Memory :=
  fun i => if h : i < buf.length then buf[i] else past (i - buf.length)

@[simp] theorem length_block (mem : Memory) (addr len : Nat) :
    (mem.block addr len).length = len := by
  simp [block]

theorem block_one (mem : Memory) (addr : Nat) : mem.block addr 1 = [mem addr] := rfl

theorem block_add (mem : Memory) (addr m n : Nat) :
    mem.block addr (m + n) = mem.block addr m ++ mem.block (addr + m) n := by
  rw [block, block, block, ← List.map_append, List.range'_append_1]

theorem take_block (mem : Memory) (addr m n : Nat) :
    (mem.block addr (m + n)).take m = mem.block addr m := by
  rw [block_add, List.take_left' (length_block mem addr m)]

theorem drop_block (mem : Memory) (addr m n : Nat) :
    (mem.block addr (m + n)).drop m = mem.block (addr + m) n := by
  rw [block_add, List.drop_left' (length_block mem addr m)]

/-- A block inside a larger one is a slice of it. -/
theorem slice_block (mem : Memory) {addr len off n : Nat} (h : off + n ≤ len) :
    ((mem.block addr len).drop off).take n = mem.block (addr + off) n := by
  obtain ⟨rest, rfl⟩ := Nat.exists_eq_add_of_le h
  rw [Nat.add_assoc, drop_block, take_block]

@[simp] theorem getElem_block (mem : Memory) (addr len i : Nat)
    (h : i < (mem.block addr len).length) : (mem.block addr len)[i] = mem (addr + i) := by
  simp [block]

theorem ofBuffer_append (pre rest : List UInt8) (past : Memory) (i : Nat) :
    ofBuffer (pre ++ rest) past (pre.length + i) = ofBuffer rest past i := by
  by_cases hi : i < rest.length
  · have hlt : pre.length + i < (pre ++ rest).length := by simp; omega
    simp [ofBuffer, hi]
  · have hge : ¬ pre.length + i < (pre ++ rest).length := by simp; omega
    have hsub : pre.length + i - (pre.length + rest.length) = i - rest.length := by omega
    simp [ofBuffer, hi, hsub]

theorem block_ofBuffer_append (pre rest : List UInt8) (past : Memory) (len : Nat) :
    (ofBuffer (pre ++ rest) past).block pre.length len = (ofBuffer rest past).block 0 len := by
  rw [block, block, List.range'_eq_map_range, List.range'_eq_map_range, List.map_map, List.map_map]
  apply List.map_congr_left
  intro i _
  simpa using ofBuffer_append pre rest past i

theorem block_ofBuffer_self (buf : List UInt8) (past : Memory) :
    (ofBuffer buf past).block 0 buf.length = buf := by
  apply List.ext_getElem (by simp)
  intro i hi _
  have hlt : i < buf.length := by simpa using hi
  simp [block, ofBuffer, hlt]

/-- A block inside a buffer is a slice of it. -/
theorem block_ofBuffer {buf : List UInt8} {addr n : Nat} (h : addr + n ≤ buf.length)
    (past : Memory) : (ofBuffer buf past).block addr n = (buf.drop addr).take n := by
  have hslice := @slice_block (ofBuffer buf past) 0 _ _ _ h
  rw [block_ofBuffer_self, Nat.zero_add] at hslice
  exact hslice.symm

/-- The bytes of a buffer between a prefix and a suffix. -/
theorem block_ofBuffer_mid (pre mid post : List UInt8) (past : Memory) :
    (ofBuffer (pre ++ (mid ++ post)) past).block pre.length mid.length = mid := by
  have h := block_ofBuffer_self (mid ++ post) past
  rw [block_ofBuffer_append, ← take_block _ 0 mid.length post.length, ← List.length_append, h,
    List.take_left' rfl]

end Memory

/-- A block that has been read: `len` bytes from `addr` on. `head` marks the byte that opens a
record. -/
structure Access where
  addr : Nat
  len : Nat
  head : Bool
  deriving DecidableEq, Repr

/-- Every access of the log ends at or before `limit`. -/
def InBounds (limit : Nat) (log : List Access) : Prop :=
  ∀ a ∈ log, a.addr + a.len ≤ limit

instance (limit : Nat) (log : List Access) : Decidable (InBounds limit log) :=
  inferInstanceAs (Decidable (∀ a ∈ log, a.addr + a.len ≤ limit))

namespace InBounds

@[simp] theorem nil (limit : Nat) : InBounds limit [] := by simp [InBounds]

@[simp] theorem cons_iff (limit : Nat) (a : Access) (log : List Access) :
    InBounds limit (a :: log) ↔ a.addr + a.len ≤ limit ∧ InBounds limit log := by
  simp [InBounds]

@[simp] theorem append_iff (limit : Nat) (log log' : List Access) :
    InBounds limit (log ++ log') ↔ InBounds limit log ∧ InBounds limit log' := by
  simp [InBounds, or_imp, forall_and]

end InBounds

/-- A computation over a memory: its result, and the blocks it read, in order. -/
def ReadM (α : Type) : Type := Memory → α × List Access

namespace ReadM

variable {α β : Type}

/-- The result over a memory. -/
def result (m : ReadM α) (mem : Memory) : α := (m mem).1

/-- The blocks read from a memory. -/
def log (m : ReadM α) (mem : Memory) : List Access := (m mem).2

instance : Monad ReadM where
  pure a := fun _ => (a, [])
  bind m f := fun mem =>
    let (a, log) := m mem
    let (b, log') := f a mem
    (b, log ++ log')

/-- Copy out `len` bytes from `addr` on. -/
def read (addr len : Nat) : ReadM (List UInt8) :=
  fun mem => (mem.block addr len, [⟨addr, len, false⟩])

/-- Read the byte that opens a record. -/
def readHead (addr : Nat) : ReadM UInt8 :=
  fun mem => (mem addr, [⟨addr, 1, true⟩])

@[simp] theorem result_pure (a : α) (mem : Memory) : (pure a : ReadM α).result mem = a := rfl

@[simp] theorem log_pure (a : α) (mem : Memory) : (pure a : ReadM α).log mem = [] := rfl

@[simp] theorem result_bind (m : ReadM α) (f : α → ReadM β) (mem : Memory) :
    (m >>= f).result mem = (f (m.result mem)).result mem := rfl

@[simp] theorem log_bind (m : ReadM α) (f : α → ReadM β) (mem : Memory) :
    (m >>= f).log mem = m.log mem ++ (f (m.result mem)).log mem := rfl

@[simp] theorem result_read (addr len : Nat) (mem : Memory) :
    (read addr len).result mem = mem.block addr len := rfl

@[simp] theorem log_read (addr len : Nat) (mem : Memory) :
    (read addr len).log mem = [⟨addr, len, false⟩] := rfl

@[simp] theorem result_readHead (addr : Nat) (mem : Memory) :
    (readHead addr).result mem = mem addr := rfl

@[simp] theorem log_readHead (addr : Nat) (mem : Memory) :
    (readHead addr).log mem = [⟨addr, 1, true⟩] := rfl

/-- The offsets at which a log opens a record. -/
def heads (log : List Access) : List Nat := (log.filter (·.head)).map (·.addr)

@[simp] theorem heads_cons_head (addr len : Nat) (log : List Access) :
    heads (⟨addr, len, true⟩ :: log) = addr :: heads log := rfl

@[simp] theorem heads_append (log log' : List Access) :
    heads (log ++ log') = heads log ++ heads log' := by
  simp [heads]

/-- Over `mem`, `m` returns `a`, opens no record, and reads up to `stop` and not beyond. -/
structure ReadsTo (m : ReadM α) (mem : Memory) (a : α) (stop : Nat) : Prop where
  result : m.result mem = a
  inBounds : ∀ limit, InBounds limit (m.log mem) ↔ stop ≤ limit
  heads : heads (m.log mem) = []

namespace ReadsTo

variable {mem : Memory}

theorem pure (a : α) : ReadsTo (Pure.pure a) mem a 0 :=
  ⟨rfl, by simp, rfl⟩

theorem read (addr len : Nat) :
    ReadsTo (ReadM.read addr len) mem (mem.block addr len) (addr + len) :=
  ⟨rfl, by simp, rfl⟩

theorem bind {m : ReadM α} {f : α → ReadM β} {a : α} {b : β} {stop stop' : Nat}
    (hm : ReadsTo m mem a stop) (hf : ReadsTo (f a) mem b stop') :
    ReadsTo (m >>= f) mem b (max stop stop') := by
  refine ⟨?_, fun limit => ?_, ?_⟩
  · rw [result_bind, hm.result, hf.result]
  · rw [log_bind, hm.result, InBounds.append_iff, hm.inBounds, hf.inBounds]
    omega
  · rw [log_bind, hm.result, heads_append, hm.heads, hf.heads, List.append_nil]

end ReadsTo

end ReadM
