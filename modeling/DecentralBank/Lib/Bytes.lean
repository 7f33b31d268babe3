import Mathlib.Data.String.Basic
import Mathlib.Tactic.Linarith

/-!
# The size of texts

A character takes up to four bytes in UTF-8.
-/

namespace DecentralBank

theorem toList_loop_length (b : ByteArray) (i : Nat) (rest : List UInt8) :
    (ByteArray.toList.loop b i rest).length = rest.length + (b.size - i) := by
  fun_induction ByteArray.toList.loop b i rest with
  | case1 i rest more ih =>
    rw [ih, List.length_cons]
    omega
  | case2 i rest done =>
    rw [List.length_reverse]
    omega

theorem length_toUTF8 (s : String) : s.toUTF8.toList.length = s.utf8ByteSize := by
  rw [ByteArray.toList, toList_loop_length]
  simp

theorem utf8ByteSize_ofList_le (l : List Char) : (String.ofList l).utf8ByteSize ≤ 4 * l.length := by
  induction l with
  | nil => simp
  | cons c l ih =>
    have front : String.ofList (c :: l) = String.ofList [c] ++ String.ofList l := by
      rw [← String.ofList_append, List.singleton_append]
    have first : (String.ofList [c]).utf8ByteSize = c.utf8Size := by simp
    have small := c.utf8Size_le_four
    rw [front, String.utf8ByteSize_append, List.length_cons]
    omega

end DecentralBank
