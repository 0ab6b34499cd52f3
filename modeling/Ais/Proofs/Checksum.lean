import Ais.Checksum

/-!
# Checksums — words and bytes

Taking bytes four at a time gives the same checksum as taking them one by one (`wide_eq_xor`): a
word stands for its four bytes in the machine's order, and exclusive or works on all of them at
once.
-/

namespace Ais.Checksum

/-- What has been folded so far stands apart. -/
theorem foldl_xor (acc : UInt8) (bytes : List UInt8) :
    bytes.foldl (· ^^^ ·) acc = acc ^^^ xor bytes := by
  induction bytes generalizing acc with
  | nil => simp [xor]
  | cons b bytes ih =>
      have hb : xor (b :: bytes) = b ^^^ xor bytes := by
        rw [xor, List.foldl_cons, ih]
        simp
      rw [List.foldl_cons, ih, hb, UInt8.xor_assoc]

theorem xor_append (xs ys : List UInt8) : xor (xs ++ ys) = xor xs ^^^ xor ys := by
  rw [xor, List.foldl_append, foldl_xor]
  rfl

namespace ByteOrder

/-- A word stands for the bytes that it was made of. -/
theorem bytes_word (a b c d : UInt8) (order : ByteOrder) :
    bytes (word a b c d order) order = [a, b, c, d] := by
  cases order <;> simp only [bytes, word, List.cons.injEq, and_true] <;>
    refine ⟨?_, ?_, ?_, ?_⟩ <;> refine UInt8.eq_of_toBitVec_eq ?_ <;> ext i hi <;>
    simp (disch := omega) [BitVec.getLsbD_of_ge] <;> grind

/-- The exclusive or of words is that of their bytes. -/
theorem xor_bytes (u v : UInt32) (order : ByteOrder) :
    xor (bytes (u ^^^ v) order) = xor (bytes u order) ^^^ xor (bytes v order) := by
  cases order <;>
    simp only [bytes, xor, List.foldl_cons, List.foldl_nil, UInt32.shiftRight_xor,
      UInt32.toUInt8_xor] <;>
    ac_rfl

end ByteOrder

/-- The words and what is left of the bytes have the checksum of all of them. -/
theorem xor_words (order : ByteOrder) (acc : UInt32) (bytes : List UInt8) :
    xor (order.bytes (words order acc bytes).1) ^^^ xor (words order acc bytes).2 =
      xor (order.bytes acc) ^^^ xor bytes := by
  fun_induction words order acc bytes with
  | case1 acc a b c d rest ih =>
      have hrest : xor (a :: b :: c :: d :: rest) = xor [a, b, c, d] ^^^ xor rest :=
        xor_append [a, b, c, d] rest
      rw [ih, ByteOrder.xor_bytes, ByteOrder.bytes_word, hrest, UInt8.xor_assoc]
  | case2 acc tail h => rfl

/-- **Taking words changes nothing**, whatever the alignment and the byte order. -/
theorem wide_eq_xor (order : ByteOrder) (head : Nat) (bytes : List UInt8) :
    wide order head bytes = xor bytes := by
  have hwords := xor_words order 0 (bytes.drop head)
  have hzero : xor (order.bytes 0) = 0 := by cases order <;> rfl
  rw [hzero, UInt8.zero_xor] at hwords
  have hfront : xor (bytes.take head) ^^^ xor (bytes.drop head) = xor bytes := by
    rw [← xor_append, List.take_append_drop]
  rw [← hfront, ← hwords, ← UInt8.xor_assoc, ← foldl_xor]
  rfl

theorem compute_eq_xor (bytes : List UInt8) : compute bytes = xor bytes := wide_eq_xor ..

end Ais.Checksum
