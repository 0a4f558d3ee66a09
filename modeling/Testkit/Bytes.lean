/-! Byte strings, as they travel in requests, responses and streams. -/

namespace Testkit

abbrev Bytes := List UInt8

namespace Bytes

def ofText (s : String) : Bytes := s.toUTF8.toList

/-- The text that the bytes are the UTF-8 of, if they are. -/
def text? (b : Bytes) : Option String := String.fromUTF8? ⟨b.toArray⟩

theorem toList_loop_eq (b : ByteArray) (i : Nat) (before : List UInt8) :
    ByteArray.toList.loop b i before = before.reverse ++ b.data.toList.drop i := by
  induction i, before using ByteArray.toList.loop.induct b with
  | case1 i before hi ih =>
    have hlen : i < b.data.toList.length := hi
    have hget : b.get! i = b.data.toList[i] := getElem!_pos b.data i hi
    rw [ByteArray.toList.loop, if_pos hi, ih, List.drop_eq_getElem_cons hlen, hget,
      List.reverse_cons, List.append_assoc, List.singleton_append]
  | case2 i before hi =>
    rw [ByteArray.toList.loop, if_neg hi, List.drop_eq_nil_of_le (Nat.le_of_not_lt hi),
      List.append_nil]

theorem ofText_eq (s : String) : ofText s = s.toUTF8.data.toList := by
  rw [ofText, ByteArray.toList, toList_loop_eq]
  rfl

theorem ofText_append (s t : String) : ofText (s ++ t) = ofText s ++ ofText t := by
  simp only [ofText_eq, String.toUTF8, String.toByteArray_append, ByteArray.data_append,
    Array.toList_append]

theorem text?_ofText (s : String) : text? (ofText s) = some s := by
  have h : (⟨(ofText s).toArray⟩ : ByteArray) = s.toByteArray := by
    rw [ofText_eq]
    rfl
  rw [text?, h, String.fromUTF8?, dif_pos s.isValidUTF8]
  rfl

end Bytes

end Testkit
