import Ais.Proofs.Payload.Packer
import Ais.Sentence.Header

/-!
# Payloads — putting the armour on

Bits become text by sixes: each group of six is written as its character, and the last group is
filled up with zero bits first (`Bits.armour`, `Bits.padding`).

* `ofText_armour`: the text says the bits, and the zero bits that fill the last character.
* `endsPayload_armour`: it can stand in a sentence.
-/

namespace Ais

namespace Bits

/-- The character of six bits. -/
def toChar (six : List Bool) : UInt8 := Armour.char (UInt8.ofNat (value six))

/-- The text of a list of bits. -/
def armour : List Bool → List UInt8
  | a :: b :: c :: d :: e :: f :: rest => toChar [a, b, c, d, e, f] :: armour rest
  | []   => []
  | rest => [toChar (rest ++ List.replicate (6 - rest.length) false)]

/-- How many bits of the last character are filled up. -/
def padding (bits : List Bool) : Nat := (6 - bits.length % 6) % 6

theorem padding_lt (bits : List Bool) : padding bits < 6 := Nat.mod_lt _ (by decide)

theorem value_char : ∀ v : Fin 64, Armour.value (Armour.char (UInt8.ofNat v)) = UInt8.ofNat v := by
  decide

theorem endsPayload_char :
    ∀ v : Fin 64, Scan.endsPayload (Armour.char (UInt8.ofNat v)) = false := by
  decide

variable {six : List Bool}

/-- A character says the six bits that it was made of. -/
theorem ofChar_toChar (h : six.length = 6) : ofChar (toChar six) = six := by
  have hlt : value six < 64 := by
    have := value_lt six
    rwa [h] at this
  have hsmall : (UInt8.ofNat (value six)).toNat = value six := by
    rw [UInt8.toNat_ofNat', Nat.mod_eq_of_lt (Nat.lt_trans hlt (by decide))]
  rw [ofChar, toChar, value_char ⟨_, hlt⟩, hsmall, ← h]
  exact ofNat_value six

theorem endsPayload_toChar (h : six.length = 6) : Scan.endsPayload (toChar six) = false := by
  have hlt : value six < 64 := by
    have := value_lt six
    rwa [h] at this
  exact endsPayload_char ⟨_, hlt⟩

/-- The last group is short, and there is one. -/
theorem length_last {bits : List Bool} (hne : bits ≠ [])
    (h : ∀ a b c d e f rest, bits ≠ a :: b :: c :: d :: e :: f :: rest) :
    0 < bits.length ∧ bits.length < 6 := by
  refine ⟨List.length_pos_iff.mpr hne, ?_⟩
  rcases bits with _ | ⟨a, _ | ⟨b, _ | ⟨c, _ | ⟨d, _ | ⟨e, _ | ⟨f, rest⟩⟩⟩⟩⟩⟩
  case cons.cons.cons.cons.cons.cons => exact absurd rfl (h a b c d e f rest)
  all_goals simp

/-- **The text says the bits**, and the zero bits that fill its last character. -/
theorem ofText_armour (bits : List Bool) :
    ofText (armour bits) = bits ++ List.replicate (padding bits) false := by
  fun_induction armour bits with
  | case1 a b c d e f rest ih =>
      have hpadding : padding (a :: b :: c :: d :: e :: f :: rest) = padding rest := by
        simp only [padding, List.length_cons, Nat.add_assoc, Nat.reduceAdd, Nat.add_mod_right]
      rw [ofText_cons, ofChar_toChar rfl, ih, hpadding]
      rfl
  | case2 => rfl
  | case3 rest hne hrest =>
      obtain ⟨hpos, hlt⟩ := length_last hrest hne
      have hpadding : padding rest = 6 - rest.length := by
        rw [padding, Nat.mod_eq_of_lt hlt, Nat.mod_eq_of_lt (by omega)]
      have hsix : (rest ++ List.replicate (6 - rest.length) false).length = 6 := by
        rw [List.length_append, List.length_replicate]
        omega
      rw [ofText_cons, ofChar_toChar hsix, ofText_nil, List.append_nil, hpadding]

/-- The text has six bits in each character. -/
theorem length_armour (bits : List Bool) :
    6 * (armour bits).length = bits.length + padding bits := by
  rw [← length_ofText, ofText_armour, List.length_append, List.length_replicate]

/-- The text can stand in a sentence. -/
theorem endsPayload_armour (bits : List Bool) : ∀ c ∈ armour bits, Scan.endsPayload c = false := by
  fun_induction armour bits with
  | case1 a b c d e f rest ih =>
      intro x hx
      rcases List.mem_cons.mp hx with rfl | hx
      · exact endsPayload_toChar rfl
      · exact ih x hx
  | case2 => simp
  | case3 rest hne hrest =>
      obtain ⟨hpos, hlt⟩ := length_last hrest hne
      intro x hx
      rw [List.mem_singleton.mp hx]
      refine endsPayload_toChar ?_
      rw [List.length_append, List.length_replicate]
      omega

end Bits

end Ais
