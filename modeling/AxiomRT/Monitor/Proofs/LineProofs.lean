import AxiomRT.Axiomctl.Proofs.EventProofs
import AxiomRT.Monitor.Serial

/-!
# Monitor lines reach the host

The line the kernel renders fits its buffer, and the host's parser reads back the event: kind,
category and every field.
-/

namespace AxiomRT.Monitor

open AxiomRT.Lib
open AxiomRT.Axiomctl

/-! ## What the kernel writes -/

/-- The fields of a rendered event, with their rendered values. -/
def renderedFields (event : MonitorEvent) : List (String × String) :=
  [("ts", event.timestamp.toNat.repr), ("task", event.task.toNat.repr),
    ("sev", severityName event.severity), ("phase", event.phase.name)] ++
  (event.policyResult.map fun policy => ("policy", policyName policy)).toList ++
  (event.relatedCap.map fun cap => ("cap", cap.toNat.repr)).toList ++
  (event.relatedSyscall.map fun sys => ("syscall", sys.toNat.repr)).toList

/-- The category `docs/21` gives to the kind. -/
def documentedCategory : MonitorEventType → Category
  | .taskStarted | .taskExited | .taskFaulted => .task
  | .capDenied => .capability
  | .ipcDenied => .ipc
  | .pageFault | .deadlineMissed => .fault
  | .watchdogTimeout => .watchdog
  | .recoveryApplied => .recovery

theorem categorize_name (t : MonitorEventType) (fields : List (String × String)) :
    categorize t.name fields = some (documentedCategory t) := by
  cases t <;> rfl

theorem clean_name (t : MonitorEventType) : Clean ("type", t.name) := by
  cases t <;> decide

theorem clean_repr {k : String} (hk : Clean (k, "")) (n : ℕ) : Clean (k, n.repr) :=
  ⟨hk.key, hk.noEquals, (word_repr n).solid⟩

theorem clean_renderedFields (event : MonitorEvent) : ∀ f ∈ renderedFields event, Clean f := by
  intro f hf
  simp only [renderedFields, List.mem_append, List.mem_cons, List.not_mem_nil, or_false,
    Option.mem_toList, Option.map_eq_some_iff] at hf
  rcases hf with ((((rfl | rfl | rfl | rfl) | ⟨policy, -, rfl⟩) | ⟨cap, -, rfl⟩) | ⟨sys, -, rfl⟩)
  · exact clean_repr (by decide) _
  · exact clean_repr (by decide) _
  · cases event.severity <;> decide
  · cases event.phase <;> decide
  · cases policy <;> decide
  · exact clean_repr (by decide) _
  · exact clean_repr (by decide) _

/-! ### The buffer -/

namespace BufWriter

/-- Pieces that fit are written one after the other. -/
theorem write_ok (w : BufWriter) (pieces : List String)
    (h : w.written.size + (String.join pieces).utf8ByteSize ≤ w.capacity) :
    ∃ w', w.write pieces = (w', .ok ()) ∧ w'.capacity = w.capacity ∧
      w'.written = w.written ++ (String.join pieces).toByteArray := by
  induction pieces generalizing w with
  | nil => exact ⟨w, rfl, rfl, by simp⟩
  | cons piece rest ih =>
    rw [String.join_cons, String.utf8ByteSize_append] at h
    have hfit : ¬ w.capacity - w.written.size < piece.toByteArray.size := by
      rw [String.size_toByteArray]
      omega
    obtain ⟨w₁, hw₁, hcap, hwritten⟩ : ∃ w₁, w.writeStr piece = (w₁, .ok ()) ∧
        w₁.capacity = w.capacity ∧ w₁.written = w.written ++ piece.toByteArray := by
      rw [writeStr, dif_neg hfit]
      exact ⟨_, rfl, rfl, rfl⟩
    have hroom : w₁.written.size + (String.join rest).utf8ByteSize ≤ w₁.capacity := by
      rw [hwritten, hcap, ByteArray.size_append, String.size_toByteArray]
      omega
    obtain ⟨w₂, hw₂, hcap₂, hwritten₂⟩ := ih w₁ hroom
    refine ⟨w₂, ?_, hcap₂.trans hcap, ?_⟩
    · simp only [write, hw₁, hw₂]
    · rw [hwritten₂, hwritten, String.join_cons, String.toByteArray_append, ByteArray.append_assoc]

theorem writeField_ok (w : BufWriter) (field : Option (List String))
    (h : w.written.size + (String.join (field.getD [])).utf8ByteSize ≤ w.capacity) :
    ∃ w', writeField (w, .ok ()) field = (w', .ok ()) ∧ w'.capacity = w.capacity ∧
      w'.written = w.written ++ (String.join (field.getD [])).toByteArray := by
  cases field with
  | none => exact ⟨w, rfl, rfl, by simp⟩
  | some pieces => exact w.write_ok pieces h

end BufWriter

/-! ### The longest line -/

theorem size_u64_le (n : UInt64) : n.toNat.repr.utf8ByteSize ≤ 20 :=
  utf8ByteSize_repr_le (by decide) (Nat.lt_trans n.toNat_lt (by decide))

theorem size_u32_le (n : UInt32) : n.toNat.repr.utf8ByteSize ≤ 10 :=
  utf8ByteSize_repr_le (by decide) (Nat.lt_trans n.toNat_lt (by decide))

theorem size_basePieces_le (event : MonitorEvent) :
    (String.join (basePieces event)).utf8ByteSize ≤ 92 := by
  have htype : event.eventType.name.utf8ByteSize ≤ 16 := by cases event.eventType <;> decide
  have hts := size_u64_le event.timestamp
  have htask := size_u32_le event.task
  have hsev : (severityName event.severity).utf8ByteSize ≤ 8 := by cases event.severity <;> decide
  have hphase : event.phase.name.utf8ByteSize ≤ 7 := by cases event.phase <;> decide
  have hfixed : "EVT type=".utf8ByteSize = 9 ∧ " ts=".utf8ByteSize = 4 ∧
      " task=".utf8ByteSize = 6 ∧ " sev=".utf8ByteSize = 5 ∧ " phase=".utf8ByteSize = 7 := by decide
  simp only [basePieces, String.join_cons, String.join_nil, String.utf8ByteSize_append,
    String.utf8ByteSize_empty, hfixed]
  omega

/-- An optional field takes its name and at most the longest of its values. -/
theorem size_field_le {α : Type*} (value : Option α) (name : String) {text : α → String} {k : ℕ}
    (h : ∀ a, (text a).utf8ByteSize ≤ k) :
    (String.join ((value.map fun a => [name, text a]).getD [])).utf8ByteSize ≤
      name.utf8ByteSize + k := by
  cases value with
  | none => exact Nat.zero_le _
  | some a =>
    simp only [Option.map_some, Option.getD_some, String.join_cons, String.join_nil,
      String.utf8ByteSize_append, String.utf8ByteSize_empty]
    have ha := h a
    omega

theorem size_policyPieces_le (event : MonitorEvent) :
    (String.join ((policyPieces event).getD [])).utf8ByteSize ≤ 18 := by
  have hpolicy : ∀ policy, (policyName policy).utf8ByteSize ≤ 10 := by
    intro policy
    cases policy <;> decide
  exact size_field_le event.policyResult " policy=" hpolicy

theorem size_capPieces_le (event : MonitorEvent) :
    (String.join ((capPieces event).getD [])).utf8ByteSize ≤ 15 :=
  size_field_le event.relatedCap " cap=" size_u32_le

theorem size_syscallPieces_le (event : MonitorEvent) :
    (String.join ((syscallPieces event).getD [])).utf8ByteSize ≤ 29 :=
  size_field_le event.relatedSyscall " syscall=" size_u64_le

/-- The pieces make up the line with the type and the rendered fields on it. -/
theorem join_pieces (event : MonitorEvent) :
    String.join (basePieces event) ++ String.join ((policyPieces event).getD []) ++
        String.join ((capPieces event).getD []) ++ String.join ((syscallPieces event).getD []) =
      monitorLine (("type", event.eventType.name) :: renderedFields event) := by
  apply String.toList_inj.1
  rw [policyPieces, capPieces, syscallPieces, renderedFields]
  cases event.policyResult <;> cases event.relatedCap <;> cases event.relatedSyscall <;>
    simp [basePieces, monitorLine, token]

theorem render_eq (event : MonitorEvent) :
    render event =
      ⟨(monitorLine (("type", event.eventType.name) :: renderedFields event)).toByteArray,
        false⟩ := by
  have hroom : lineCapacity - marker.utf8ByteSize = 181 := by decide
  have hbase := size_basePieces_le event
  have hpolicy := size_policyPieces_le event
  have hcap := size_capPieces_le event
  have hsyscall := size_syscallPieces_le event
  -- Each write finds what the earlier ones left of the 181 bytes.
  obtain ⟨w₁, hw₁, hc₁, hb₁⟩ := BufWriter.write_ok
    ⟨lineCapacity - marker.utf8ByteSize, .empty, Nat.zero_le _, false⟩ (basePieces event)
    (by simp only [hroom, ByteArray.size_empty]; omega)
  simp only [hroom, ByteArray.empty_append] at hc₁ hb₁
  obtain ⟨w₂, hw₂, hc₂, hb₂⟩ := w₁.writeField_ok (policyPieces event)
    (by rw [hc₁, hb₁, String.size_toByteArray]; omega)
  rw [hb₁, ← String.toByteArray_append] at hb₂
  obtain ⟨w₃, hw₃, hc₃, hb₃⟩ := w₂.writeField_ok (capPieces event)
    (by rw [hc₂, hc₁, hb₂, String.size_toByteArray, String.utf8ByteSize_append]; omega)
  rw [hb₂, ← String.toByteArray_append] at hb₃
  obtain ⟨w₄, hw₄, -, hb₄⟩ := w₃.writeField_ok (syscallPieces event)
    (by
      rw [hc₃, hc₂, hc₁, hb₃, String.size_toByteArray, String.utf8ByteSize_append,
        String.utf8ByteSize_append]
      omega)
  rw [hb₃, ← String.toByteArray_append, join_pieces] at hb₄
  simp only [render, hw₁, hw₂, hw₃, hw₄, hb₄]

theorem asStr_toByteArray (s : String) (b : Bool) :
    EventLine.asStr ⟨s.toByteArray, b⟩ = some s := by
  show String.fromUTF8? s.toByteArray = some s
  rw [String.fromUTF8?, dif_pos s.isValidUTF8]
  rfl

/-- Every event is rendered without truncation, and the host reads back from the line the kind and
its documented category, no flags, and exactly the rendered fields, in their order. -/
theorem parseLine_render (event : MonitorEvent) :
    (render event).truncated = false ∧
      ∃ line ev, (render event).asStr = some line ∧ parseLine line = some ev ∧
        ev.kind = event.eventType.name ∧ ev.category = documentedCategory event.eventType ∧
        ev.flags = [] ∧ ev.fields = renderedFields event := by
  have hparse := parseLine_monitorLine (clean_name event.eventType) (clean_renderedFields event)
  rw [categorize_name, Option.map_some] at hparse
  rw [render_eq]
  exact ⟨rfl, _, _, asStr_toByteArray _ _, hparse, rfl, rfl, rfl, rfl⟩

end AxiomRT.Monitor
