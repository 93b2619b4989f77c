import AxiomRT.Fault.Wire

/-!
# Proofs: the fault wire format is a bijection

Encoding and decoding are inverse to each other, between the contents of fault events and the
messages that `decode` accepts.
-/

namespace AxiomRT.Ipc.Message

variable {m m' : Message}

theorem payload_eq (m : Message) :
    m.payload = m.data ++ List.replicate (msgMaxBytes - m.header.len) 0 := by
  rw [← m.padding]
  exact (List.take_append_drop _ _).symm

theorem length_data (m : Message) : m.data.length = m.header.len := by
  rw [data, List.length_take, m.length_payload]
  exact Nat.min_eq_left m.len_le

/-- A message is its sender and its data. -/
theorem ext_data (hs : m.header.sender = m'.header.sender) (hd : m.data = m'.data) : m = m' := by
  have hlen : m.header.len = m'.header.len := by rw [← length_data, ← length_data, hd]
  have hpay : m.payload = m'.payload := by rw [payload_eq, payload_eq m', hd, hlen]
  obtain ⟨⟨s, n⟩, p, _, _, _⟩ := m
  obtain ⟨⟨s', n'⟩, p', _, _, _⟩ := m'
  cases hs
  cases hlen
  cases hpay
  rfl

@[simp] theorem data_ofBytes (sender : Threads.ThreadId) (bytes : List UInt8)
    (h : bytes.length ≤ msgMaxBytes) : (ofBytes sender bytes h).data = bytes := List.take_left

end AxiomRT.Ipc.Message

namespace AxiomRT.Fault

open Lib
open Ipc (Message)

/-! ## Fault types -/

theorem faultTypeFromU8_toU8 (t : FaultType) : faultTypeFromU8 (faultTypeToU8 t) = some t := by
  cases t <;> rfl

theorem faultTypeToU8_of_from {v : UInt8} {t : FaultType} (h : faultTypeFromU8 v = some t) :
    faultTypeToU8 t = v := by
  unfold faultTypeFromU8 at h
  split_ifs at h <;> cases h <;> symm <;> assumption

/-! ## Layout -/

/-- The `expect` of `encode` does not fail. -/
theorem new_wireBytes (e : FaultEvent) :
    Message.new kernelSender (wireBytes e) = .ok (encode e) := by
  unfold Message.new
  rw [dif_pos]
  rfl

theorem data_encode (e : FaultEvent) : (encode e).data = wireBytes e := Message.data_ofBytes ..

section Layout

variable (e : FaultEvent)

/-- The fields stand one after the other. -/
theorem wireBytes_slices :
    slice (wireBytes e) 0 8 = toLE 8 e.eventId.toNat ∧
    slice (wireBytes e) 8 9 = [faultTypeToU8 e.faultType] ∧
    slice (wireBytes e) 9 10 = [e.severity.toU8] ∧
    slice (wireBytes e) 10 14 = toLE 4 e.thread.toNat ∧
    slice (wireBytes e) 14 22 = toLE 8 e.pc.toNat ∧
    slice (wireBytes e) 22 30 = toLE 8 e.detail.toNat := by
  generalize hA : toLE 8 e.eventId.toNat = A
  generalize hB : toLE 4 e.thread.toNat = B
  generalize hC : toLE 8 e.pc.toNat = C
  generalize hD : toLE 8 e.detail.toNat = D
  have hw : wireBytes e = A ++ ([faultTypeToU8 e.faultType] ++ ([e.severity.toU8] ++
      (B ++ (C ++ D)))) := by rw [wireBytes, hA, hB, hC, hD]
  have hAl : A.length = 8 := by rw [← hA, length_toLE]
  have hBl : B.length = 4 := by rw [← hB, length_toLE]
  have hCl : C.length = 8 := by rw [← hC, length_toLE]
  have hDl : D.length = 8 := by rw [← hD, length_toLE]
  refine ⟨?_, ?_, ?_, ?_, ?_, ?_⟩
  · exact slice_middle (p := []) hw rfl (by rw [hAl])
  · exact slice_middle hw hAl rfl
  · exact slice_middle (p := A ++ [faultTypeToU8 e.faultType]) (r := B ++ (C ++ D))
      (by rw [hw]; simp) (by simp [hAl]) rfl
  · exact slice_middle (p := A ++ [faultTypeToU8 e.faultType] ++ [e.severity.toU8]) (r := C ++ D)
      (by rw [hw]; simp) (by simp [hAl]) (by rw [hBl])
  · exact slice_middle (p := A ++ [faultTypeToU8 e.faultType] ++ [e.severity.toU8] ++ B) (r := D)
      (by rw [hw]; simp) (by simp [hAl, hBl]) (by rw [hCl])
  · exact slice_middle (p := A ++ [faultTypeToU8 e.faultType] ++ [e.severity.toU8] ++ B ++ C)
      (r := []) (by rw [hw]; simp) (by simp [hAl, hBl, hCl]) (by rw [hDl])

/-- The byte at offset `i`. -/
theorem getD_of_slice {l : List UInt8} {i : ℕ} {b : UInt8} (hi : i < l.length)
    (h : slice l i (i + 1) = [b]) : l.getD i 0 = b := by
  rw [slice_one hi 0] at h
  exact List.head_eq_of_cons_eq h

end Layout

/-! ## Numbers -/

theorem u64_roundtrip (x : UInt64) : UInt64.ofNat (ofLE (toLE 8 x.toNat)) = x := by
  rw [ofLE_toLE x.toNat_lt, UInt64.ofNat_toNat]

theorem u32_roundtrip (x : UInt32) : UInt32.ofNat (ofLE (toLE 4 x.toNat)) = x := by
  rw [ofLE_toLE x.toNat_lt, UInt32.ofNat_toNat]

theorem toLE_u64 {bs : List UInt8} (h : bs.length = 8) :
    toLE 8 (UInt64.ofNat (ofLE bs)).toNat = bs := by
  have hlt : ofLE bs < 2 ^ 64 := by
    have h256 := ofLE_lt bs
    rw [h] at h256
    exact h256
  rw [UInt64.toNat_ofNat', Nat.mod_eq_of_lt hlt, ← h, toLE_ofLE]

theorem toLE_u32 {bs : List UInt8} (h : bs.length = 4) :
    toLE 4 (UInt32.ofNat (ofLE bs)).toNat = bs := by
  have hlt : ofLE bs < 2 ^ 32 := by
    have h256 := ofLE_lt bs
    rw [h] at h256
    exact h256
  rw [UInt32.toNat_ofNat', Nat.mod_eq_of_lt hlt, ← h, toLE_ofLE]

/-! ## Both directions -/

theorem decode_encode (e : FaultEvent) : decode (encode e) = .ok e.report := by
  obtain ⟨hid, hty, hsev, hth, hpc, hdet⟩ := wireBytes_slices e
  have hlen := length_wireBytes e
  have hty' : (wireBytes e).getD 8 0 = faultTypeToU8 e.faultType :=
    getD_of_slice (by rw [hlen]; decide) hty
  have hsev' : (wireBytes e).getD 9 0 = e.faultType.severity.toU8 := by
    rw [← e.severity_eq]
    exact getD_of_slice (by rw [hlen]; decide) hsev
  have hsender : (encode e).header.sender = kernelSender := rfl
  unfold decode
  rw [if_neg (not_not.mpr hsender), data_encode, if_neg (not_not.mpr hlen), hty',
    faultTypeFromU8_toU8]
  simp only [hsev', ne_eq, not_true, if_false, hid, hth, hpc, hdet, u64_roundtrip, u32_roundtrip]
  rfl

/-- What an accepted message looks like. -/
theorem decode_ok {m : Message} {r : FaultReport} (h : decode m = .ok r) :
    m.header.sender = kernelSender ∧ m.data.length = faultWireBytes ∧
      faultTypeToU8 r.faultType = m.data.getD 8 0 ∧
      r.faultType.severity.toU8 = m.data.getD 9 0 ∧
      r.severity = r.faultType.severity ∧
      r.eventId = .ofNat (ofLE (slice m.data 0 8)) ∧
      r.thread = .ofNat (ofLE (slice m.data 10 14)) ∧
      r.pc = .ofNat (ofLE (slice m.data 14 22)) ∧
      r.detail = .ofNat (ofLE (slice m.data 22 30)) := by
  unfold decode at h
  split_ifs at h with hs hl
  cases ht : faultTypeFromU8 (m.data.getD 8 0) with
  | none =>
    rw [ht] at h
    cases h
  | some t =>
    simp only [ht] at h
    split_ifs at h with hv
    cases h
    exact ⟨not_not.mp hs, not_not.mp hl, faultTypeToU8_of_from ht, (not_not.mp hv).symm, rfl, rfl,
      rfl, rfl, rfl⟩

theorem wireBytes_event {m : Message} {r : FaultReport} (h : decode m = .ok r) :
    wireBytes r.event = m.data := by
  obtain ⟨-, hlen, hty, hsev, -, hid, hth, hpc, hdet⟩ := decode_ok h
  have hl : ∀ {a b}, b ≤ 30 → (slice m.data a b).length = b - a := fun hb =>
    length_slice (by rw [hlen]; exact hb)
  have h8 : slice m.data 8 9 = [m.data.getD 8 0] := slice_one (by rw [hlen]; decide) 0
  have h9 : slice m.data 9 10 = [m.data.getD 9 0] := slice_one (by rw [hlen]; decide) 0
  calc wireBytes r.event
      = slice m.data 0 8 ++ (slice m.data 8 9 ++ (slice m.data 9 10 ++ (slice m.data 10 14 ++
          (slice m.data 14 22 ++ slice m.data 22 30)))) := by
        rw [h8, h9, ← hty, ← hsev]
        simp only [wireBytes, FaultReport.event, FaultEvent.new]
        rw [hid, hth, hpc, hdet, toLE_u64 (hl (by decide)), toLE_u32 (hl (by decide)),
          toLE_u64 (hl (by decide)), toLE_u64 (hl (by decide))]
    _ = slice m.data 0 30 := by
        rw [slice_append_slice (by decide) (by decide), slice_append_slice (by decide) (by decide),
          slice_append_slice (by decide) (by decide), slice_append_slice (by decide) (by decide),
          slice_append_slice (by decide) (by decide)]
    _ = m.data := by
        rw [show 30 = m.data.length from hlen.symm]
        exact slice_full

theorem encode_event {m : Message} {r : FaultReport} (h : decode m = .ok r) :
    encode r.event = m := by
  apply Message.ext_data
  · exact (decode_ok h).1.symm
  · rw [data_encode, wireBytes_event h]

/-- Decoding inverts encoding; encoding inverts decoding, with the same sender, length and bytes;
and an accepted message is determined by its report. -/
theorem wire_bijection :
    (∀ e : FaultEvent, decode (encode e) = .ok e.report) ∧
    (∀ m r, decode m = .ok r → encode r.event = m) ∧
    (∀ m m' r, decode m = .ok r → decode m' = .ok r → m = m') := by
  refine ⟨decode_encode, fun m r h => encode_event h, fun m m' r h h' => ?_⟩
  rw [← encode_event h, encode_event h']

end AxiomRT.Fault
