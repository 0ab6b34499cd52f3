import Ais.Proofs.Assembly.Shown
import Ais.Proofs.Payload.Packer

/-!
# Payloads — what shows of a payload

What a payload held before does not show once it has been filled, and of the message it is filled
from only what shows of that (`ofMessage_congr`).
-/

namespace Ais.Payload

/-- All that can be seen of a payload. -/
def shown (p : Payload) : List UInt8 × Nat × Option UInt8 := (p.bytes, p.bits, p.channel)

/-- Text has no bits, or it fills any payload in the same way. -/
theorem dearmourBits_cases (text : List UInt8) (fill : UInt8) :
    (∀ p : Payload, (p.dearmourBits text fill).2 = 0) ∨
      ∃ bits, ∃ bytes : List UInt8, bits ≠ 0 ∧
        ∀ p : Payload, ∃ q : Payload, p.dearmourBits text fill = (q, bits) ∧ q.bits = bits ∧
          q.bytes = bytes := by
  by_cases h : Fills text fill
  · have hpos := h.fill_lt
    obtain ⟨q₀, -, -, hbytes₀⟩ := empty.dearmour_ok text fill h.length_le h.fill_le h.fill_lt
    refine .inr ⟨6 * text.length - fill.toNat, q₀.bytes, by omega, fun p => ?_⟩
    obtain ⟨q, hq, hbits, hbytes⟩ := p.dearmour_ok text fill h.length_le h.fill_le h.fill_lt
    refine ⟨q, by rw [dearmourBits, hq]; rfl, hbits, ?_⟩
    exact Bits.ofBytes_injective (hbytes.trans hbytes₀.symm)
  · left
    intro p
    obtain ⟨e, he, -⟩ := dearmour_refused h p
    rw [dearmourBits, he]
    rfl

/-- **Filling a payload from a message shows of what shows of the message alone.** -/
theorem ofMessage_congr (p p' : Payload) {m m' : Message} (e : m.shown = m'.shown) :
    (p.ofMessage m).2 = (p'.ofMessage m').2 ∧
      ((p.ofMessage m).2 ≠ 0 → (p.ofMessage m).1.shown = (p'.ofMessage m').1.shown) := by
  have hpayload : m.payload.bytes = m'.payload.bytes := congrArg (fun shown => shown.2.1) e
  have hchannel : m.channel = m'.channel := congrArg (fun shown => shown.2.2.1) e
  have hfill : m.fill = m'.fill := congrArg (fun shown => shown.2.2.2) e
  simp only [ofMessage, hpayload, hchannel, hfill]
  rcases dearmourBits_cases m'.payload.bytes m'.fill with hzero | ⟨bits, bytes, hne, hsome⟩
  · rw [hzero p, hzero p']
    exact ⟨rfl, fun h => absurd rfl h⟩
  · obtain ⟨q, hq, hbits, hbytes⟩ := hsome p
    obtain ⟨q', hq', hbits', hbytes'⟩ := hsome p'
    rw [hq, hq']
    refine ⟨rfl, fun _ => ?_⟩
    rw [shown, shown, show Payload.bytes { q with channel := m'.channel } = q.bytes from rfl,
      show Payload.bytes { q' with channel := m'.channel } = q'.bytes from rfl, hbytes, hbytes',
      hbits, hbits']

end Ais.Payload
