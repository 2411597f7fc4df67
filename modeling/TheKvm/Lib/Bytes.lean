import Mathlib.Algebra.Order.Ring.Int
import Mathlib.Data.List.Induction
import Mathlib.Data.List.TakeDrop

/-!
Big-endian integers and reading from a stream of bytes.
-/

namespace TheKvm.Bytes

/-- The low `w` bytes of a number, most significant first. -/
def toBe : ℕ → ℕ → List UInt8
  | 0, _ => []
  | w + 1, n => toBe w (n / 256) ++ [UInt8.ofNat (n % 256)]

/-- The number a list of bytes spells, most significant first. -/
def ofBe (bytes : List UInt8) : ℕ := bytes.foldl (fun acc byte => acc * 256 + byte.toNat) 0

@[simp] lemma length_toBe (w n : ℕ) : (toBe w n).length = w := by
  induction w generalizing n with
  | zero => rfl
  | succ w ih => simp [toBe, ih]

/-- **Round trip.** What fits in the bytes is read back from them. -/
theorem ofBe_toBe {w n : ℕ} (h : n < 256 ^ w) : ofBe (toBe w n) = n := by
  induction w generalizing n with
  | zero =>
    have : n = 0 := by simpa using h
    subst this
    rfl
  | succ w ih =>
    have hdiv : n / 256 < 256 ^ w := by
      rw [Nat.pow_succ] at h
      omega
    have hbyte : (UInt8.ofNat (n % 256)).toNat = n % 256 := by simp
    rw [toBe, ofBe, List.foldl_append, ← ofBe, ih hdiv, List.foldl_cons, List.foldl_nil, hbyte]
    omega

lemma ofBe_snoc (bytes : List UInt8) (byte : UInt8) :
    ofBe (bytes ++ [byte]) = ofBe bytes * 256 + byte.toNat := by
  rw [ofBe, List.foldl_append, ← ofBe, List.foldl_cons, List.foldl_nil]

/-- What is read from some bytes fits in them. -/
lemma ofBe_lt (bytes : List UInt8) : ofBe bytes < 256 ^ bytes.length := by
  induction bytes using List.reverseRecOn with
  | nil => decide
  | append_singleton bytes byte ih =>
    have hbyte : byte.toNat < 256 := byte.toNat_lt
    rw [ofBe_snoc, List.length_append, List.length_singleton, Nat.pow_succ]
    omega

/-- **Round trip, the other way.** Bytes are what they spell, written in as many bytes. -/
theorem toBe_ofBe (bytes : List UInt8) : toBe bytes.length (ofBe bytes) = bytes := by
  induction bytes using List.reverseRecOn with
  | nil => rfl
  | append_singleton bytes byte ih =>
    have hbyte : byte.toNat < 256 := byte.toNat_lt
    have hdiv : (ofBe bytes * 256 + byte.toNat) / 256 = ofBe bytes := by omega
    have hmod : (ofBe bytes * 256 + byte.toNat) % 256 = byte.toNat := by omega
    rw [ofBe_snoc, List.length_append, List.length_singleton, toBe, hdiv, hmod, ih,
      UInt8.ofNat_toNat]

/-- The first `n` bytes of a stream and what follows, if there are so many. -/
def splitExact (n : ℕ) (bytes : List UInt8) : Option (List UInt8 × List UInt8) :=
  if bytes.length < n then none else some (bytes.take n, bytes.drop n)

lemma splitExact_append {n : ℕ} {bytes rest : List UInt8} (h : bytes.length = n) :
    splitExact n (bytes ++ rest) = some (bytes, rest) := by
  subst h
  rw [splitExact, if_neg (by simp), List.take_left, List.drop_left]

end TheKvm.Bytes
