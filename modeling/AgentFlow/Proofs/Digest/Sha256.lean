import AgentFlow.Digest.Sha256
import Mathlib.Data.List.Basic

/-!
# The bytes that are hashed

A string is hashed by its bytes, which are the bytes of its characters one after another
(`toList_toUTF8_ofList`). So the hash of a string that is given by its characters is found without
the string (`sha256Hex_ofList`).
-/

namespace AgentFlow

theorem toList_loop_eq_reverse_append (bytes : ByteArray) (i : Nat) (done : List UInt8) :
    ByteArray.toList.loop bytes i done = done.reverse ++ bytes.data.toList.drop i := by
  fun_induction ByteArray.toList.loop bytes i done with
  | case1 i done hi ih =>
    have hlength : i < bytes.data.toList.length := hi
    have hbyte : bytes.get! i = bytes.data.toList[i] := getElem!_pos bytes.data i hi
    rw [ih, List.reverse_cons, List.append_assoc, List.drop_eq_getElem_cons hlength, hbyte]
    rfl
  | case2 i done hi =>
    have hlength : bytes.data.toList.length ≤ i := Nat.le_of_not_lt hi
    rw [List.drop_eq_nil_of_le hlength, List.append_nil]

theorem toList_toUTF8_ofList (cs : List Char) :
    (String.ofList cs).toUTF8.toList = cs.flatMap String.utf8EncodeChar := by
  have hdata : (String.ofList cs).toUTF8.data = (cs.flatMap String.utf8EncodeChar).toArray :=
    List.data_toByteArray
  rw [ByteArray.toList, toList_loop_eq_reverse_append, hdata]
  simp

/-- The hash of a string by its characters. -/
theorem sha256Hex_ofList (cs : List Char) :
    sha256Hex (String.ofList cs)
      = String.ofList ((Sha256.hashWords (cs.flatMap String.utf8EncodeChar)).flatMap fun w ↦
          hexDigits 8 w.toNat) := by
  rw [sha256Hex, toList_toUTF8_ofList]

end AgentFlow
