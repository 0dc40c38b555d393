import CachingProxy.Digest.Sha256
import CachingProxy.Disk.Store
import CachingProxy.Proofs.Text.Splitting
import Mathlib.Data.List.Basic

/-!
# The names of the files

The file of a body is named by the digits of its digest, and the name under which it is staged has
dots that no such name has.  Both are single components and short enough, so every lookup in the
root finds or misses them, and nothing else.
-/

set_option autoImplicit false

namespace CachingProxy

/-! ## Digits -/

theorem Hex.digit_plain : ∀ n < 16, (digit n).utf8Size = 1 ∧ digit n ≠ '/' ∧ digit n ≠ '.' := by
  decide

theorem Hex.exists_of_mem_digits {bytes : Bytes} {c : Char} (member : c ∈ digits bytes) :
    ∃ n < 16, c = digit n := by
  obtain ⟨b, _, here⟩ := List.mem_flatMap.mp member
  have small : b.toNat < 256 := b.toNat_lt
  rcases List.mem_cons.mp here with high | low
  · exact ⟨b.toNat / 16, by omega, high⟩
  · exact ⟨b.toNat % 16, by omega, List.mem_singleton.mp low⟩

theorem Hex.plain_of_mem_digits {bytes : Bytes} {c : Char} (member : c ∈ digits bytes) :
    c.utf8Size = 1 ∧ c ≠ '/' ∧ c ≠ '.' := by
  obtain ⟨n, small, rfl⟩ := exists_of_mem_digits member
  exact digit_plain n small

theorem Hex.length_digits (bytes : Bytes) : (digits bytes).length = 2 * bytes.length := by
  induction bytes with
  | nil => rfl
  | cons b rest ih =>
      rw [digits, List.flatMap_cons, List.length_append, ← digits, ih, List.length_cons]
      simp only [List.length_cons, List.length_nil]
      omega

theorem Sha256.length_digest (message : Bytes) : (digest message).length = 32 := rfl

namespace Disk

/-! ## Names with one component -/

structure IsFileName (name : String) : Prop where
  components : components name = [name]
  short : name.utf8ByteSize ≤ maxName
  ofFile : namesDirectory name = false

theorem utf8ByteSize_ofList {cs : List Char} (single : ∀ c ∈ cs, c.utf8Size = 1) :
    (String.ofList cs).utf8ByteSize = cs.length := by
  induction cs with
  | nil => rfl
  | cons c rest ih =>
      rw [String.ofList_cons, String.utf8ByteSize_append, String.utf8ByteSize_singleton,
        single c (List.mem_cons_self ..),
        ih fun d member => single d (List.mem_cons_of_mem c member), List.length_cons]
      omega

theorem isFileName_ofList {cs : List Char} (single : ∀ c ∈ cs, c.utf8Size = 1)
    (whole : ∀ c ∈ cs, c ≠ '/') (long : 2 < cs.length) (short : cs.length ≤ maxName) :
    IsFileName (String.ofList cs) := by
  have one : Text.splitBy (fun c => c == '/') cs = [cs] :=
    Text.splitBy_of_none fun c member => by simpa using whole c member
  have nonempty : cs ≠ [] := by
    rintro rfl
    simp at long
  refine ⟨?_, ?_, ?_⟩
  · have plain : cs ≠ [] ∧ cs ≠ ['.'] ∧ cs ≠ ['.', '.'] := by
      refine ⟨nonempty, ?_, ?_⟩ <;> rintro rfl <;> simp at long
    rw [Disk.components, String.toList_ofList, one, List.foldl_cons, List.foldl_nil,
      if_neg (by simp [plain]), if_neg plain.2.2, List.nil_append]
  · rw [utf8ByteSize_ofList single]
    exact short
  · rw [namesDirectory, String.toList_ofList, List.getLast?_eq_some_getLast nonempty]
    exact beq_false_of_ne (whole _ (List.getLast_mem nonempty))

/-! ## The names of a body -/

theorem length_digestDigits (content : Bytes) :
    (Hex.digits (Sha256.digest content)).length = 64 := by
  rw [Hex.length_digits, Sha256.length_digest]

theorem isFileName_hexDigest (content : Bytes) : IsFileName (Sha256.hexDigest content) := by
  have length := length_digestDigits content
  apply isFileName_ofList
  · exact fun c member => (Hex.plain_of_mem_digits member).1
  · exact fun c member => (Hex.plain_of_mem_digits member).2.1
  · omega
  · rw [maxName]
    omega

theorem stagingName_hexDigest (content : Bytes) : Store.stagingName (Sha256.hexDigest content) =
    String.ofList ('.' :: (Hex.digits (Sha256.digest content) ++ ['.', 't', 'm', 'p'])) := by
  rw [String.ofList_cons, String.ofList_append]
  rfl

theorem isFileName_stagingName (content : Bytes) :
    IsFileName (Store.stagingName (Sha256.hexDigest content)) := by
  have length := length_digestDigits content
  have ending : ∀ c ∈ ['.', 't', 'm', 'p'], c.utf8Size = 1 ∧ c ≠ '/' := by
    intro c member
    simp only [List.mem_cons, List.not_mem_nil, or_false] at member
    rcases member with rfl | rfl | rfl | rfl <;> decide
  have parts : ∀ c ∈ '.' :: (Hex.digits (Sha256.digest content) ++ ['.', 't', 'm', 'p']),
      c.utf8Size = 1 ∧ c ≠ '/' := by
    intro c member
    rcases List.mem_cons.mp member with rfl | member
    · decide
    rcases List.mem_append.mp member with digit | suffix
    · exact ⟨(Hex.plain_of_mem_digits digit).1, (Hex.plain_of_mem_digits digit).2.1⟩
    · exact ending c suffix
  rw [stagingName_hexDigest]
  apply isFileName_ofList
  · exact fun c member => (parts c member).1
  · exact fun c member => (parts c member).2
  · simp [length]
  · simp [length, maxName]

/-- No body is staged under the name of a body: a digest has no dot. -/
theorem stagingName_ne_hexDigest (one other : Bytes) :
    Store.stagingName (Sha256.hexDigest one) ≠ Sha256.hexDigest other := by
  intro same
  rw [stagingName_hexDigest, Sha256.hexDigest, Hex.encode, String.ofList_inj] at same
  have dot : '.' ∈ Hex.digits (Sha256.digest other) := by
    rw [← same]
    exact List.mem_cons_self ..
  exact (Hex.plain_of_mem_digits dot).2.2 rfl

theorem stagingName_injective {one other : Bytes}
    (same : Store.stagingName (Sha256.hexDigest one) = Store.stagingName (Sha256.hexDigest other)) :
    Sha256.hexDigest one = Sha256.hexDigest other := by
  rw [stagingName_hexDigest, stagingName_hexDigest, String.ofList_inj, List.cons_inj_right,
    List.append_cancel_right_eq] at same
  rw [Sha256.hexDigest, Hex.encode, same]
  rfl

end Disk

end CachingProxy
