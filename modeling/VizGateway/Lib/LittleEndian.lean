import Mathlib

/-!
# Numbers in bytes

A number in so many bytes, least significant first, and back.
-/

namespace VizGateway

/-- `n` in `w` bytes, least significant first. -/
def littleEndian : ℕ → ℕ → List UInt8
  | 0, _ => []
  | w + 1, n => UInt8.ofNat (n % 256) :: littleEndian w (n / 256)

def ofLittleEndian : List UInt8 → ℕ
  | [] => 0
  | b :: bs => b.toNat + 256 * ofLittleEndian bs

@[simp] theorem length_littleEndian (w n : ℕ) : (littleEndian w n).length = w := by
  induction w generalizing n with
  | zero => rfl
  | succ w ih => rw [littleEndian, List.length_cons, ih]

theorem littleEndian_inj {w m n : ℕ} (hm : m < 256 ^ w) (hn : n < 256 ^ w)
    (h : littleEndian w m = littleEndian w n) : m = n := by
  induction w generalizing m n with
  | zero => omega
  | succ w ih =>
    rw [Nat.pow_succ'] at hm hn
    rw [littleEndian, littleEndian, List.cons.injEq] at h
    have hlow := congrArg UInt8.toNat h.1
    rw [UInt8.toNat_ofNat', UInt8.toNat_ofNat'] at hlow
    have hhigh := ih (by omega) (by omega) h.2
    omega

theorem ofLittleEndian_littleEndian (w n : ℕ) : ofLittleEndian (littleEndian w n) = n % 256 ^ w := by
  induction w generalizing n with
  | zero => simp [littleEndian, ofLittleEndian, Nat.mod_one]
  | succ w ih =>
    rw [littleEndian, ofLittleEndian, ih, UInt8.toNat_ofNat',
      show 256 ^ (w + 1) = 256 * 256 ^ w from Nat.pow_succ', Nat.mod_mul]
    omega

theorem ofLittleEndian_lt (bs : List UInt8) : ofLittleEndian bs < 256 ^ bs.length := by
  induction bs with
  | nil => decide
  | cons b bs ih =>
    have hb := b.toNat_lt
    rw [ofLittleEndian, List.length_cons, Nat.pow_succ']
    omega

/-- Bytes are the number they hold, in as many bytes. -/
theorem littleEndian_ofLittleEndian (bs : List UInt8) :
    littleEndian bs.length (ofLittleEndian bs) = bs := by
  induction bs with
  | nil => rfl
  | cons b bs ih =>
    have hb := b.toNat_lt
    rw [List.length_cons, littleEndian, ofLittleEndian,
      show (b.toNat + 256 * ofLittleEndian bs) / 256 = ofLittleEndian bs by omega,
      show (b.toNat + 256 * ofLittleEndian bs) % 256 = b.toNat by omega, ih, UInt8.ofNat_toNat]

end VizGateway
