import Mathlib.Data.List.Induction
import Ais.Proofs.Assembly.Table
import Ais.Proofs.Checksum
import Ais.Proofs.Payload.Armoured

/-!
# Messages — what is cut up arrives

Bits are armoured, the text is cut into one to nine pieces, and each piece is written as a sentence
(`Carries`).  The sentences arrive in order, one a `Reception`: other sentences may come before it,
as long as they do not go to the message's slot.

* `received_held`: from the first sentence on, the slot holds those that have arrived.
* `Arrives.ofMessage`: a message joined of these sentences is unpacked to the bits.
* `arrives_complete`: so the message is complete at the last sentence, not before, and says what
  was sent.
-/

namespace Ais

open Bits

/-- The sentences `forms`, in order, carry `bits` under the message id `id`. -/
structure Carries (bits : List Bool) (id : Option UInt8) (forms : List Form) : Prop where
  length_le : forms.length ≤ Limits.sentencesPerMessage
  talker    : ∀ f ∈ forms, f.talker = Ascii.ofString "AIVDM"
  count     : ∀ f ∈ forms, f.count.toNat = forms.length
  number    : forms.map (·.number.toNat) = List.range' 1 forms.length
  messageId : ∀ f ∈ forms, f.messageId = id
  digit     : ∀ d ∈ id, d ≤ 9
  channel   : ∀ f ∈ forms, ∀ c ∈ f.channel, c ≠ Ascii.comma
  payload   : forms.flatMap (·.payload) = armour bits
  fill      : ∀ f ∈ forms, f.fill.toNat ≤ Limits.fillBits
  padding   : ∀ f ∈ forms.getLast?, f.fill.toNat = padding bits
  high      : ∀ f ∈ forms, (Ascii.nibble? f.high).isSome
  low       : ∀ f ∈ forms, (Ascii.nibble? f.low).isSome
  checksum  : ∀ f ∈ forms, Checksum.xor f.body = f.checksum
  size      : ∀ f ∈ forms, f.text.length ≤ Limits.sentenceBytes

/-- One sentence arrives: what goes to the table before it, what stands behind it in the stream, and
the records that it is read and joined into. -/
structure Reception where
  others  : List (Message × Sentence)
  form    : Form
  behind  : List UInt8
  record  : Sentence
  message : Message

/-- What becomes of the record when the sentence is read. -/
def Reception.parsed (talkers : Talkers) (t : Reception) : Sentence × Except Fault Nat :=
  t.record.parse talkers (t.form.text ++ t.behind)

def Reception.sentence (talkers : Talkers) (t : Reception) : Sentence := (t.parsed talkers).1

namespace Assembly

/-- The others go to the table, and then the sentence. -/
def receive (talkers : Talkers) (a : Assembly) (t : Reception) : Assembly × Message × Outcome :=
  (a.feed t.others).process t.message (t.sentence talkers)

/-- The table after some of them. -/
def receiveAll (talkers : Talkers) (a : Assembly) (ts : List Reception) : Assembly :=
  ts.foldl (fun a t => (a.receive talkers t).1) a

theorem receiveAll_concat (talkers : Talkers) (a : Assembly) (ts : List Reception) (t : Reception) :
    a.receiveAll talkers (ts ++ [t]) = ((a.receiveAll talkers ts).receive talkers t).1 := by
  rw [receiveAll, List.foldl_append]
  rfl

end Assembly

/-! ### The sentences of one message -/

/-- The slot of a message id. -/
def slotOf (id : Option UInt8) : Nat := (id.getD 0).toNat

namespace Carries

variable {bits : List Bool} {id : Option UInt8} {forms : List Form}

theorem slotOf_lt (h : Carries bits id forms) : slotOf id < Limits.slots := by
  cases id with
  | none => decide
  | some d => exact Nat.lt_succ_of_le (UInt8.le_iff_toNat_le.mp (h.digit d rfl))

/-- The sentences are numbered from 1 on. -/
theorem number_of_append (h : Carries bits id forms) {before after : List Form} {f : Form}
    (hforms : forms = before ++ f :: after) : f.number.toNat = before.length + 1 := by
  have hat := congrArg (·[before.length]?) h.number
  subst hforms
  simp only [List.map_append, List.map_cons, List.length_append, List.length_cons] at hat
  rw [List.getElem?_append_right (by simp), List.getElem?_range' (by omega)] at hat
  have : f.number.toNat = 1 + 1 * before.length := by simpa using hat
  omega

/-- The sentences can be read. -/
theorem valid (h : Carries bits id forms) (talkers : Talkers) {f : Form} (hf : f ∈ forms) :
    f.Valid talkers := by
  obtain ⟨before, after, hforms⟩ := List.append_of_mem hf
  have hnumber := h.number_of_append hforms
  have hcount := h.count f hf
  have hlength : forms.length = before.length + (after.length + 1) := by
    rw [hforms, List.length_append, List.length_cons]
  have hle := h.length_le
  refine ⟨?_, fun e => ?_, hcount ▸ hle, fun e => ?_, ?_, ?_, h.channel f hf, fun b hb => ?_,
    h.fill f hf, h.high f hf, h.low f hf, h.size f hf⟩
  · rw [h.talker f hf]
    cases talkers <;> rfl
  · rw [e] at hcount
    simp only [UInt8.toNat_zero] at hcount
    omega
  · rw [e] at hnumber
    simp only [UInt8.toNat_zero] at hnumber
    omega
  · exact UInt8.le_iff_toNat_le.mpr (by omega)
  · rw [h.messageId f hf]
    exact h.digit
  · have : b ∈ forms.flatMap (·.payload) := List.mem_flatMap.mpr ⟨f, hf, hb⟩
    rw [h.payload] at this
    exact endsPayload_armour bits b this

end Carries

/-! ### How they arrive -/

/-- The sentences of one message arrive: each has something behind it, and what comes before it goes
to other slots. -/
structure Arrives (bits : List Bool) (id : Option UInt8) (ts : List Reception) : Prop where
  carries : Carries bits id (ts.map (·.form))
  behind  : ∀ t ∈ ts, t.behind ≠ []
  others  : ∀ t ∈ ts, ∀ x ∈ t.others, x.2.goesTo (slotOf id) = false

namespace Arrives

variable {bits : List Bool} {id : Option UInt8} {ts : List Reception} {t : Reception}

theorem form_mem (ht : t ∈ ts) : t.form ∈ ts.map (·.form) := List.mem_map_of_mem ht

/-- Each sentence is read. -/
theorem parsed (h : Arrives bits id ts) (talkers : Talkers) (ht : t ∈ ts) :
    (t.parsed talkers).2 = .ok t.form.text.length ∧ (t.sentence talkers).Holds t.form := by
  have hvalid := h.carries.valid talkers (form_mem ht)
  obtain ⟨s, hparse, hholds⟩ := t.record.parse_text hvalid (h.behind t ht)
  refine ⟨congrArg Prod.snd hparse, ?_⟩
  rw [Reception.sentence, Reception.parsed, hparse]
  exact hholds

theorem isRead (h : Arrives bits id ts) (talkers : Talkers) (ht : t ∈ ts) :
    (t.sentence talkers).IsRead :=
  Sentence.isRead_parse _ (h.parsed talkers ht).1

theorem isValid (h : Arrives bits id ts) (talkers : Talkers) (ht : t ∈ ts) :
    (t.sentence talkers).isValid = true := by
  rw [(h.parsed talkers ht).2.isValid_iff, Checksum.compute_eq_xor]
  exact h.carries.checksum _ (form_mem ht)

theorem count (h : Arrives bits id ts) (talkers : Talkers) (ht : t ∈ ts) :
    (t.sentence talkers).count.toNat = ts.length := by
  rw [(h.parsed talkers ht).2.count, h.carries.count _ (form_mem ht), List.length_map]

theorem isSingle (h : Arrives bits id ts) (talkers : Talkers) (ht : t ∈ ts) :
    (t.sentence talkers).isSingle = decide (ts.length = 1) := by
  rw [Sentence.isSingle, ← h.count talkers ht, Bool.eq_iff_iff, beq_iff_eq, decide_eq_true_iff,
    ← UInt8.toNat_inj]
  rfl

theorem slot (h : Arrives bits id ts) (talkers : Talkers) (ht : t ∈ ts) :
    (t.sentence talkers).slot = slotOf id := by
  rw [(h.parsed talkers ht).2.slot, h.carries.messageId _ (form_mem ht), slotOf]

theorem isPart (h : Arrives bits id ts) (hlong : ts.length ≠ 1) (talkers : Talkers) (ht : t ∈ ts) :
    (t.sentence talkers).IsPart :=
  (h.isRead talkers ht).hasForm.isPart ((h.isSingle talkers ht).trans (decide_eq_false hlong))

/-- The sentences are numbered from 1 on. -/
theorem number (h : Arrives bits id ts) (talkers : Talkers) {before after : List Reception}
    (hts : ts = before ++ t :: after) :
    (t.sentence talkers).number.toNat = before.length + 1 := by
  have hforms : ts.map (·.form) = before.map (·.form) ++ t.form :: after.map (·.form) := by
    rw [hts, List.map_append, List.map_cons]
  rw [(h.parsed talkers (by simp [hts])).2.number, h.carries.number_of_append hforms,
    List.length_map]

/-- The number of a sentence is the count where no other comes after it. -/
theorem number_eq_count_iff (h : Arrives bits id ts) (talkers : Talkers)
    {before after : List Reception} (hts : ts = before ++ t :: after) :
    (t.sentence talkers).number = (t.sentence talkers).count ↔ after = [] := by
  rw [← UInt8.toNat_inj, h.number talkers hts, h.count talkers (by simp [hts]), hts,
    List.length_append, List.length_cons, ← List.length_eq_zero_iff]
  omega

/-- A slot that holds what has arrived accepts the next sentence. -/
theorem accepts (h : Arrives bits id ts) (talkers : Talkers) {before after : List Reception}
    (hts : ts = before ++ t :: after) {slot : Slot}
    (hheld : slot.held = before.map (·.sentence talkers)) (hcount : slot.count.toNat = ts.length) :
    slot.accepts (t.sentence talkers) = true := by
  refine Slot.accepts_iff.mpr ⟨?_, .inr ?_⟩
  · rw [hheld, List.length_map, h.number talkers hts]
  · exact UInt8.toNat_inj.mp ((h.count talkers (by simp [hts])).trans hcount.symm)

theorem ne_nil (h : Arrives bits id ts) (hbits : bits ≠ []) : ts ≠ [] := by
  rintro rfl
  have hpayload : armour bits = [] := by rw [← h.carries.payload]; rfl
  have hlength := length_armour bits
  rw [hpayload, List.length_nil] at hlength
  exact hbits (List.eq_nil_of_length_eq_zero (by omega))

/-- What is joined of the sentences says what was armoured, and how. -/
theorem joined (h : Arrives bits id ts) (hbits : bits ≠ []) (talkers : Talkers) {m : Message}
    (hm : m.Joins (ts.map (·.sentence talkers))) :
    m.payload.bytes = armour bits ∧ m.fill.toNat = padding bits ∧
      m.channel = ts.head?.bind fun t => t.form.channel := by
  have hholds : ∀ t ∈ ts, (t.sentence talkers).Holds t.form := fun t ht =>
    (h.parsed talkers ht).2
  refine ⟨?_, ?_, ?_⟩
  · have hpayloads : ts.map (fun t => (t.sentence talkers).payloadBytes) =
        ts.map (fun t => t.form.payload) :=
      List.map_congr_left fun t ht => (hholds t ht).payloadBytes
    rw [hm.payload, ← h.carries.payload, List.flatMap_map, List.flatMap_map, List.flatMap_def,
      hpayloads, List.flatMap_def]
  · obtain ⟨before, last, rfl⟩ : ∃ before last, ts = before ++ [last] :=
      ⟨_, _, (List.dropLast_concat_getLast (h.ne_nil hbits)).symm⟩
    rw [hm.fill]
    simpa [(hholds last (by simp)).fill] using h.carries.padding last.form (by simp)
  · rw [hm.channel]
    cases ts with
    | nil => rfl
    | cons t ts => exact (hholds t (by simp)).channel

/-- A message that is joined of the sentences is unpacked to the bits, into any payload. -/
theorem ofMessage (h : Arrives bits id ts) (hbits : bits ≠ []) (talkers : Talkers) {m : Message}
    (hm : m.Joins (ts.map (·.sentence talkers))) (p : Payload) :
    ∃ p', p.ofMessage m = (p', bits.length) ∧ p'.bits = bits.length ∧
      (ofBytes p'.bytes).take p'.bits = bits ∧
      p'.channel = ts.head?.bind fun t => t.form.channel := by
  obtain ⟨hpayload, hfill, hchannel⟩ := h.joined hbits talkers hm
  have hlength := length_armour bits
  have hpadding := padding_lt bits
  have hpos := List.length_pos_iff.mpr hbits
  obtain ⟨q, hdearmour, hq, hbytes⟩ := p.dearmour_ok m.payload.bytes m.fill m.payload.size_le
    (by rw [hfill]; exact Nat.le_of_lt_succ hpadding) (by rw [hfill, hpayload]; omega)
  have hsize : 6 * m.payload.bytes.length - m.fill.toNat = bits.length := by
    rw [hfill, hpayload]
    omega
  rw [hsize] at hdearmour hq
  refine ⟨{ q with channel := m.channel }, ?_, hq, ?_, hchannel⟩
  · simp only [Payload.ofMessage, Payload.dearmourBits, hdearmour]
    rfl
  · show (ofBytes q.bytes).take q.bits = bits
    rw [hq, hbytes, hpayload, ofText_armour, List.append_assoc, List.take_left]

end Arrives

/-! ### The table meanwhile -/

namespace Assembly

variable {bits : List Bool} {id : Option UInt8} {ts : List Reception} {t : Reception}

/-- A sentence of a longer message is one step of its slot. -/
theorem receive_eq (h : Arrives bits id ts) (hlong : ts.length ≠ 1) (talkers : Talkers)
    (ht : t ∈ ts) (a : Assembly) :
    have := h.carries.slotOf_lt
    let took := a.slots[slotOf id].take t.message (t.sentence talkers)
    (a.receive talkers t).1.slots[slotOf id] = took.1 ∧ (a.receive talkers t).2 = took.2 := by
  have hid := h.carries.slotOf_lt
  have hvalid := h.isValid talkers ht
  have hslot := h.slot talkers ht
  have hsingle := (h.isSingle talkers ht).trans (decide_eq_false hlong)
  have hgoes := Sentence.goesTo_iff.mpr ⟨hvalid, hsingle, hslot⟩
  have hothers := slots_feed hid a (h.others t ht)
  refine ⟨?_, ?_⟩
  · rw [receive, slots_process _ _ _ hid, hgoes, if_pos rfl, hothers]
  · rw [receive, process_of_part _ _ hvalid hsingle hslot hid, hothers]

/-- **From the first sentence on, the slot holds those that have arrived**, until they are all. -/
theorem received_held (h : Arrives bits id ts) (talkers : Talkers) (a : Assembly)
    {before after : List Reception} (hts : ts = before ++ after) (hbefore : before ≠ [])
    (hafter : after ≠ []) :
    have := h.carries.slotOf_lt
    let slot := (a.receiveAll talkers before).slots[slotOf id]
    slot.held = before.map (·.sentence talkers) ∧ slot.count.toNat = ts.length := by
  induction before using List.reverseRecOn generalizing after with
  | nil => exact absurd rfl hbefore
  | append_singleton before t ih =>
      rw [List.append_assoc, List.singleton_append] at hts
      have ht : t ∈ ts := by simp [hts]
      have hlong : ts.length ≠ 1 := by
        have := List.length_pos_iff.mpr hafter
        rw [hts, List.length_append, List.length_cons]
        omega
      have hpart := h.isPart hlong talkers ht
      have hreceive := (receive_eq h hlong talkers ht (a.receiveAll talkers before)).1
      simp only [receiveAll_concat, hreceive]
      obtain ⟨slot, m, o, htake, htakes, -⟩ := Slot.take_takes _ t.message hpart
      rw [htake]
      by_cases hnil : before = []
      · -- whatever the slot held, it starts again
        have hfirst := h.number talkers hts
        rw [hnil] at hfirst
        obtain ⟨hheld, hcount, -⟩ := htakes.of_first hpart hfirst
        exact ⟨by rw [hheld, hnil]; rfl, hcount ▸ h.count talkers ht⟩
      · obtain ⟨hheld, hcount⟩ := ih hts hnil (by simp)
        have hmore := mt (h.number_eq_count_iff talkers hts).mp hafter
        obtain ⟨hheld', hcount'⟩ :=
          (htakes.of_accepts (h.accepts talkers hts hheld hcount)).2 hmore
        exact ⟨by rw [hheld', hheld, List.map_append]; rfl, hcount' ▸ h.count talkers ht⟩

/-- The message is complete at its last sentence, and joined of them all. -/
theorem receive_complete_iff (h : Arrives bits id ts) (talkers : Talkers) (a : Assembly)
    {before after : List Reception} (hts : ts = before ++ t :: after) :
    ∃ a' m o, (a.receiveAll talkers before).receive talkers t = (a', m, o) ∧
      (o = .complete ↔ after = []) ∧ (o = .complete → m.Joins (ts.map (·.sentence talkers))) := by
  have ht : t ∈ ts := by simp [hts]
  by_cases hlong : ts.length = 1
  · -- a message of one sentence passes the table by
    obtain ⟨rfl, rfl⟩ : before = [] ∧ after = [] := by
      rw [hts, List.length_append, List.length_cons] at hlong
      exact ⟨List.eq_nil_of_length_eq_zero (by omega), List.eq_nil_of_length_eq_zero (by omega)⟩
    obtain ⟨m, hm, hjoins⟩ := process_of_single ((a.receiveAll talkers []).feed t.others) t.message
      (h.isValid talkers ht) ((h.isSingle talkers ht).trans (decide_eq_true hlong))
    exact ⟨_, m, .complete, hm, by simp, fun _ => by rw [hts]; exact hjoins⟩
  · have hpart := h.isPart hlong talkers ht
    obtain ⟨slot, m, o, htake, htakes, hjoins⟩ := Slot.take_takes _ t.message hpart
    have hreceive : ((a.receiveAll talkers before).receive talkers t).2 = (m, o) := by
      rw [(receive_eq h hlong talkers ht _).2, htake]
    refine ⟨((a.receiveAll talkers before).receive talkers t).1, m, o, by rw [← hreceive], ?_⟩
    by_cases hnil : before = []
    · -- the first of several completes nothing
      have hfirst := h.number talkers hts
      rw [hnil] at hfirst
      have hmore : after ≠ [] := by
        rintro rfl
        exact hlong (by rw [hts, hnil]; rfl)
      have ho := (htakes.of_first hpart hfirst).2.2
      exact ⟨by simp [ho, hmore], fun e => absurd e ho⟩
    · obtain ⟨hheld, hcount⟩ := received_held h talkers a hts hnil (by simp)
      have hcomplete := (htakes.of_accepts (h.accepts talkers hts hheld hcount)).1
      have hlast := hcomplete.trans (h.number_eq_count_iff talkers hts)
      refine ⟨hlast, ?_⟩
      intro ho
      have hjoined := hjoins ho
      rw [hheld] at hjoined
      rw [hts, hlast.mp ho, List.map_append]
      exact hjoined

/-- **What is cut up arrives.**  Bits that are armoured, cut into sentences and read in order, with
any sentences of other slots between them, come out of any table: the message is complete at its
last sentence and at no other, and is unpacked to the bits into any payload, with the channel of its
first sentence. -/
theorem arrives_complete {bits : List Bool} (hbits : bits ≠ []) {id : Option UInt8}
    {ts : List Reception} (h : Arrives bits id ts) (talkers : Talkers) (a : Assembly) :
    (∀ t ∈ ts, (t.parsed talkers).2 = .ok t.form.text.length) ∧
      ∀ before t after, ts = before ++ t :: after →
        ∃ a' m o, (a.receiveAll talkers before).receive talkers t = (a', m, o) ∧
          (o = .complete ↔ after = []) ∧
          (o = .complete → ∀ p : Payload, ∃ p', p.ofMessage m = (p', bits.length) ∧
            p'.bits = bits.length ∧ (ofBytes p'.bytes).take p'.bits = bits ∧
            p'.channel = ts.head?.bind fun t => t.form.channel) := by
  refine ⟨fun t ht => (h.parsed talkers ht).1, ?_⟩
  intro before t after hts
  obtain ⟨a', m, o, hreceive, ho, hjoins⟩ := receive_complete_iff h talkers a hts
  exact ⟨a', m, o, hreceive, ho, fun e p => h.ofMessage hbits talkers (hjoins e) p⟩

/-- Sixteen bits in two sentences, with a sentence that is a message of its own between them, and
another message open in their slot. -/
theorem sixteen_bits_arrive :
    let bits := ofNat 16 0xFC0C
    let first : Form := ⟨Ascii.ofString "AIVDM", 2, 1, some 3, some 65, Ascii.ofString "w", 0, 54, 49⟩
    let second : Form := ⟨Ascii.ofString "AIVDM", 2, 2, some 3, some 66, Ascii.ofString "0h", 2, 52, 67⟩
    let single := (Sentence.empty.parse .any (Ascii.ofString "AIVDM,1,1,,A,w0h,2*0B\n")).1
    let t₁ : Reception := ⟨[], first, Ascii.ofString "\r\n", .empty, .empty⟩
    let t₂ : Reception := ⟨[(.empty, single)], second, Ascii.ofString "\n", single, .empty⟩
    let a := empty.feed [(.empty, t₁.sentence .any)]
    bits ≠ [] ∧ Arrives bits (some 3) [t₁, t₂] ∧
      ∃ a' m p, (a.receiveAll .strict [t₁]).receive .strict t₂ = (a', m, .complete) ∧
        Payload.empty.ofMessage m = (p, 16) ∧ (ofBytes p.bytes).take 16 = bits ∧
        p.channel = some 65 := by
  intro bits first second single t₁ t₂ a
  have hbits : bits ≠ [] := by decide
  have hcarries : Carries bits (some 3) [first, second] := by
    refine ⟨?_, ?_, ?_, ?_, ?_, ?_, ?_, ?_, ?_, ?_, ?_, ?_, ?_, ?_⟩ <;> decide +kernel
  have harrives : Arrives bits (some 3) [t₁, t₂] :=
    ⟨hcarries, by decide +kernel, by decide +kernel⟩
  obtain ⟨a', m, o, hreceive, ho, hp⟩ :=
    (arrives_complete hbits harrives .strict a).2 [t₁] t₂ [] rfl
  obtain ⟨p, hp, hsize, htake, hchannel⟩ := hp (ho.mpr rfl) .empty
  rw [hsize] at htake
  exact ⟨hbits, harrives, a', m, p, (ho.mpr rfl) ▸ hreceive, hp, htake, hchannel⟩

end Assembly

end Ais
