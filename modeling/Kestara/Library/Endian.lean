import Mathlib

/-! Fixed-width integers as byte strings. -/
namespace Endian

/-- The value of a little-endian byte string. -/
def leNat : List UInt8 → ℕ
  | [] => 0
  | b :: bs => b.toNat + 256*leNat bs

/-- The `n` low bytes of a value, least significant byte first. -/
def leBytes : ℕ → ℕ → List UInt8
  | 0,_ => []
  | n+1,v => UInt8.ofNat v :: leBytes n (v/256)

/-- Two's complement reading of the low `w` bits. -/
def signed (w : ℕ) (v : ℤ) : ℤ := Int.bmod v (2^w)

@[simp] theorem length_leBytes (n v : ℕ) : (leBytes n v).length = n := by
  induction n generalizing v with
  | zero => rfl
  | succ n ih => simp [leBytes,ih]

theorem leNat_leBytes (n v : ℕ) : leNat (leBytes n v) = v % 256^n := by
  induction n generalizing v with
  | zero => simp [leBytes,leNat,Nat.mod_one]
  | succ n ih =>
    simp only [leBytes,leNat,ih,UInt8.toNat_ofNat']
    rw [pow_succ' 256 n,Nat.mod_mul]

theorem leNat_lt (bs : List UInt8) : leNat bs < 256^bs.length := by
  induction bs with
  | nil => simp [leNat]
  | cons b bs ih =>
    have hb := b.toNat_lt
    rw [leNat,List.length_cons,pow_succ']
    omega

/-- A byte string is the bytes of its value. -/
theorem leBytes_leNat (bs : List UInt8) : leBytes bs.length (leNat bs) = bs := by
  induction bs with
  | nil => rfl
  | cons b bs ih =>
    have hb := b.toNat_lt
    have hhead : UInt8.ofNat (b.toNat + 256*leNat bs) = b := by
      apply UInt8.toNat_inj.mp
      rw [UInt8.toNat_ofNat']
      omega
    have htail : (b.toNat + 256*leNat bs)/256 = leNat bs := by omega
    rw [List.length_cons,leNat,leBytes,hhead,htail,ih]

/-- The `n` low bytes of a value, most significant byte first. -/
def beBytes (n v : ℕ) : List UInt8 := (leBytes n v).reverse

/-- One step of a big-endian read into a register of `w` bits. -/
def shiftIn {w : ℕ} (r : BitVec w) (b : UInt8) : BitVec w := r <<< 8 ||| b.toBitVec.setWidth w

@[simp] theorem length_beBytes (n v : ℕ) : (beBytes n v).length = n := by simp [beBytes]

lemma shiftIn_ofNat (w v : ℕ) (b : UInt8) :
    shiftIn (BitVec.ofNat w v) b = BitVec.ofNat w (b.toNat + 256*v) := by
  have hb : b.toNat < 2^8 := b.toNat_lt
  have hor : b.toNat + 256*v = v <<< 8 ||| b.toNat := by
    rw [← Nat.shiftLeft_add_eq_or_of_lt hb,Nat.shiftLeft_eq]
    omega
  apply BitVec.eq_of_toNat_eq
  simp only [shiftIn,BitVec.toNat_or,BitVec.toNat_shiftLeft,BitVec.toNat_ofNat,
    BitVec.toNat_setWidth,hor,Nat.or_mod_two_pow,Nat.shiftLeft_eq]
  rw [Nat.mod_mul_mod,UInt8.toNat_toBitVec]

/-- Shifting in the bytes of a value gives its low bits. -/
theorem foldl_shiftIn_beBytes (w n v : ℕ) :
    (beBytes n v).foldl shiftIn (0 : BitVec w) = BitVec.ofNat w (v % 256^n) := by
  rw [beBytes,List.foldl_reverse]
  induction n generalizing v with
  | zero => simp [leBytes,Nat.mod_one]
  | succ n ih =>
    rw [leBytes,List.foldr_cons,ih,shiftIn_ofNat,UInt8.toNat_ofNat',pow_succ' 256 n,Nat.mod_mul]

/-- Shifting in a byte string gives the low bits of its value. -/
theorem foldl_shiftIn (w : ℕ) (bs : List UInt8) :
    bs.foldl shiftIn (0 : BitVec w) = BitVec.ofNat w (leNat bs.reverse) := by
  have hbs : bs = beBytes bs.length (leNat bs.reverse) := by
    have h := leBytes_leNat bs.reverse
    rw [List.length_reverse] at h
    rw [beBytes,h,List.reverse_reverse]
  have hlt := leNat_lt bs.reverse
  rw [List.length_reverse] at hlt
  nth_rewrite 1 [hbs]
  rw [foldl_shiftIn_beBytes,Nat.mod_eq_of_lt hlt]

/-- One step of a little-endian read into a register of `w` bits: the byte and its index. -/
def orAt {w : ℕ} (r : BitVec w) (x : UInt8 × ℕ) : BitVec w :=
  r ||| x.1.toBitVec.setWidth w <<< (x.2*8)

lemma foldl_orAt_from {w : ℕ} (r : BitVec w) (bs : List UInt8) (k : ℕ) :
    (bs.zipIdx k).foldl orAt r = r ||| BitVec.ofNat w (leNat bs) <<< (k*8) := by
  induction bs generalizing r k with
  | nil => simp [leNat]
  | cons b bs ih =>
    have hb : b.toNat < 2^8 := b.toNat_lt
    have hor : leNat (b :: bs) = leNat bs <<< 8 ||| b.toNat := by
      rw [← Nat.shiftLeft_add_eq_or_of_lt hb,Nat.shiftLeft_eq,leNat]
      omega
    have hbyte : b.toBitVec.setWidth w = BitVec.ofNat w b.toNat := by
      apply BitVec.eq_of_toNat_eq
      simp
    have hnext : BitVec.ofNat w (leNat bs <<< 8) = BitVec.ofNat w (leNat bs) <<< 8 := by
      apply BitVec.eq_of_toNat_eq
      simp [Nat.shiftLeft_eq]
    rw [List.zipIdx_cons,List.foldl_cons,ih,hor,BitVec.ofNat_or,BitVec.shiftLeft_or_distrib,
      hnext,← BitVec.shiftLeft_add]
    have hk : (k+1)*8 = 8+k*8 := by ring
    rw [orAt,hbyte,hk,BitVec.or_assoc]
    congr 1
    exact BitVec.or_comm _ _

/-- A little-endian read gives the low bits of the value. -/
theorem foldl_orAt (w : ℕ) (bs : List UInt8) :
    bs.zipIdx.foldl orAt (0 : BitVec w) = BitVec.ofNat w (leNat bs) := by
  rw [foldl_orAt_from]
  simp

end Endian
