import Mathlib

/-!
# Byte order

Fixed-width unsigned numbers as byte sequences, in both orders, and the host-to-network swap of a
little-endian machine. Everything is stated once at an arbitrary width `n`; the 16- and 32-bit
versions are its instances.

The one fact the users of this file need is `leBytes_swap`: storing a swapped number
little-endian writes its big-endian bytes, and loading big-endian bytes little-endian and
swapping gives the number they spell (`swap_leNat`).
-/

namespace ByteOrder

/-- The low `n` bytes of `v`, least significant first. -/
def leBytes : Nat → Nat → List UInt8
  | 0, _ => []
  | n + 1, v => UInt8.ofNat v :: leBytes n (v / 256)

/-- The number spelled by bytes that come least significant first. -/
def leNat : List UInt8 → Nat
  | [] => 0
  | b :: bs => b.toNat + 256 * leNat bs

/-- The low `n` bytes of `v`, most significant first. -/
def beBytes (n v : Nat) : List UInt8 := (leBytes n v).reverse

/-- The number spelled by bytes that come most significant first. -/
def beNat (bs : List UInt8) : Nat := leNat bs.reverse

/-! ### Widths and ranges -/

@[simp] theorem length_leBytes (n v : Nat) : (leBytes n v).length = n := by
  induction n generalizing v with
  | zero => rfl
  | succ n ih => simp [leBytes, ih]

@[simp] theorem length_beBytes (n v : Nat) : (beBytes n v).length = n := by
  simp [beBytes]

theorem leNat_lt (bs : List UInt8) : leNat bs < 256 ^ bs.length := by
  induction bs with
  | nil => simp [leNat]
  | cons b bs ih =>
      have hb : b.toNat < 256 := b.toNat_lt
      have hstep : 256 * (leNat bs + 1) ≤ 256 * 256 ^ bs.length := Nat.mul_le_mul_left _ ih
      simp only [leNat, List.length_cons, Nat.pow_succ]
      omega

theorem beNat_lt (bs : List UInt8) : beNat bs < 256 ^ bs.length := by
  simpa [beNat] using leNat_lt bs.reverse

/-! ### Round trips -/

theorem leNat_leBytes (n v : Nat) : leNat (leBytes n v) = v % 256 ^ n := by
  induction n generalizing v with
  | zero => simp [leBytes, leNat, Nat.mod_one]
  | succ n ih =>
      rw [leBytes, leNat, ih, Nat.pow_succ, Nat.mul_comm (256 ^ n) 256, Nat.mod_mul]
      simp

theorem leBytes_leNat (bs : List UInt8) : leBytes bs.length (leNat bs) = bs := by
  induction bs with
  | nil => rfl
  | cons b bs ih =>
      have hb : b.toNat < 256 := b.toNat_lt
      have hlow : UInt8.ofNat (b.toNat + 256 * leNat bs) = b := by
        apply UInt8.toNat_inj.mp
        simp only [UInt8.toNat_ofNat']
        omega
      have hhigh : (b.toNat + 256 * leNat bs) / 256 = leNat bs := by omega
      simp only [List.length_cons, leBytes, leNat, hlow, hhigh, ih]

theorem beNat_beBytes (n v : Nat) : beNat (beBytes n v) = v % 256 ^ n := by
  simp [beNat, beBytes, leNat_leBytes]

theorem beBytes_beNat (bs : List UInt8) : beBytes bs.length (beNat bs) = bs := by
  have h := leBytes_leNat bs.reverse
  rw [List.length_reverse] at h
  rw [beBytes, beNat, h, List.reverse_reverse]

/-! ### The swap between host and network order -/

/-- Reverse the `n` bytes of `v`. -/
def swap (n v : Nat) : Nat := beNat (leBytes n v)

theorem swap_lt (n v : Nat) : swap n v < 256 ^ n := by
  simpa [swap] using beNat_lt (leBytes n v)

/-- Storing a swapped number least significant first writes it most significant first. -/
theorem leBytes_swap (n v : Nat) : leBytes n (swap n v) = beBytes n v := by
  have h := leBytes_leNat (leBytes n v).reverse
  rwa [List.length_reverse, length_leBytes] at h

/-- Loading bytes least significant first and swapping reads them most significant first. -/
theorem swap_leNat (bs : List UInt8) : swap bs.length (leNat bs) = beNat bs := by
  rw [swap, leBytes_leNat]

/-! ### 16 and 32 bits -/

/-- `htons`, and `ntohs`, of a little-endian host. -/
def htons (x : UInt16) : UInt16 := UInt16.ofNat (swap 2 x.toNat)

/-- `htonl`, and `ntohl`, of a little-endian host. -/
def htonl (x : UInt32) : UInt32 := UInt32.ofNat (swap 4 x.toNat)

@[inherit_doc htons] abbrev ntohs (x : UInt16) : UInt16 := htons x

@[inherit_doc htonl] abbrev ntohl (x : UInt32) : UInt32 := htonl x

/-- The object representation of a 16-bit number on a little-endian host. -/
def bytes16 (x : UInt16) : List UInt8 := leBytes 2 x.toNat

/-- The object representation of a 32-bit number on a little-endian host. -/
def bytes32 (x : UInt32) : List UInt8 := leBytes 4 x.toNat

/-- The 16-bit number with that object representation. -/
def load16 (bs : List UInt8) : UInt16 := UInt16.ofNat (leNat bs)

/-- The 32-bit number with that object representation. -/
def load32 (bs : List UInt8) : UInt32 := UInt32.ofNat (leNat bs)

/-- The big-endian reading of two bytes. -/
def be16 (bs : List UInt8) : UInt16 := UInt16.ofNat (beNat bs)

/-- The big-endian reading of four bytes. -/
def be32 (bs : List UInt8) : UInt32 := UInt32.ofNat (beNat bs)

@[simp] theorem length_bytes32 (x : UInt32) : (bytes32 x).length = 4 := length_leBytes _ _

theorem bytes16_htons (x : UInt16) : bytes16 (htons x) = beBytes 2 x.toNat := by
  have hlt := swap_lt 2 x.toNat
  rw [bytes16, htons, UInt16.toNat_ofNat_of_lt' (by simpa using hlt), leBytes_swap]

theorem bytes32_htonl (x : UInt32) : bytes32 (htonl x) = beBytes 4 x.toNat := by
  have hlt := swap_lt 4 x.toNat
  rw [bytes32, htonl, UInt32.toNat_ofNat_of_lt' (by simpa using hlt), leBytes_swap]

theorem ntohs_load16 {bs : List UInt8} (h : bs.length = 2) : ntohs (load16 bs) = be16 bs := by
  have hlt := leNat_lt bs
  rw [h] at hlt
  have hswap := swap_leNat bs
  rw [h] at hswap
  rw [ntohs, htons, load16, be16, UInt16.toNat_ofNat_of_lt' (by simpa using hlt), hswap]

theorem ntohl_load32 {bs : List UInt8} (h : bs.length = 4) : ntohl (load32 bs) = be32 bs := by
  have hlt := leNat_lt bs
  rw [h] at hlt
  have hswap := swap_leNat bs
  rw [h] at hswap
  rw [ntohl, htonl, load32, be32, UInt32.toNat_ofNat_of_lt' (by simpa using hlt), hswap]

theorem toNat_be16 {bs : List UInt8} (h : bs.length = 2) : (be16 bs).toNat = beNat bs := by
  have hlt := beNat_lt bs
  rw [h] at hlt
  rw [be16, UInt16.toNat_ofNat_of_lt' (by simpa using hlt)]

theorem toNat_be32 {bs : List UInt8} (h : bs.length = 4) : (be32 bs).toNat = beNat bs := by
  have hlt := beNat_lt bs
  rw [h] at hlt
  rw [be32, UInt32.toNat_ofNat_of_lt' (by simpa using hlt)]

theorem load32_bytes32 (x : UInt32) : load32 (bytes32 x) = x := by
  have hmod : x.toNat % 256 ^ 4 = x.toNat := Nat.mod_eq_of_lt x.toNat_lt
  rw [load32, bytes32, leNat_leBytes, hmod, UInt32.ofNat_toNat]

theorem beBytes_be16 {bs : List UInt8} (h : bs.length = 2) : beBytes 2 (be16 bs).toNat = bs := by
  rw [toNat_be16 h, ← h, beBytes_beNat]

theorem beBytes_be32 {bs : List UInt8} (h : bs.length = 4) : beBytes 4 (be32 bs).toNat = bs := by
  rw [toNat_be32 h, ← h, beBytes_beNat]

theorem be16_beBytes (x : UInt16) : be16 (beBytes 2 x.toNat) = x := by
  apply UInt16.toNat_inj.mp
  rw [toNat_be16 (length_beBytes _ _), beNat_beBytes]
  exact Nat.mod_eq_of_lt x.toNat_lt

theorem be32_beBytes (x : UInt32) : be32 (beBytes 4 x.toNat) = x := by
  apply UInt32.toNat_inj.mp
  rw [toNat_be32 (length_beBytes _ _), beNat_beBytes]
  exact Nat.mod_eq_of_lt x.toNat_lt

end ByteOrder
