import HealthRelay.Proofs.Json.Record
import HealthRelay.Report.Json

/-!
# Samples and reports come back from their JSON

The members that are written for a sample fill the draft of that sample (`Sample.fills`), and the
same goes for a report whose address is readable (`Report.fills`). A report that was read has a
readable address, whatever it was read from (`Report.ofJson?_readable`), so the only reports that do
not come back are those that no text can stand for.
-/

namespace HealthRelay

open Json Text

/-! ## Samples -/

namespace Sample

def draft (s : Sample) : Draft where
  status := some s.status
  slotsIdle := s.slotsIdle.map some
  slotsProcessing := s.slotsProcessing.map some
  error := s.error.map some
  observedAtMs := some s.observedAtMs

theorem finish_draft (s : Sample) : s.draft.finish = .ok s := by
  have hgetD {α : Type} (o : Option α) : (o.map some).getD none = o := by cases o <;> rfl
  simp only [draft, Draft.finish, required, ok_bind, hgetD]

theorem members_eq (s : Sample) :
    s.members = [⟨"status", writeQuoted s.status.toList⟩] ++
      (s.slotsIdle.toList.map fun n => ⟨"slots_idle", decimal n.toNat⟩) ++
      (s.slotsProcessing.toList.map fun n => ⟨"slots_processing", decimal n.toNat⟩) ++
      (s.error.toList.map fun e => ⟨"error", writeQuoted e.toList⟩) ++
      [⟨"observed_at_ms", decimal s.observedAtMs.toNat⟩] := by
  obtain ⟨status, idle, processing, error, ms⟩ := s
  cases idle <;> cases processing <;> cases error <;> rfl

section Optional

variable {d : Draft}

theorem fills_idle (h : d.slotsIdle = none) (o : Option UInt32) :
    Fills fields d (o.toList.map fun n => ⟨"slots_idle", decimal n.toNat⟩)
      { d with slotsIdle := o.map some } := by
  cases o with
  | none =>
    cases d
    cases h
    exact .nil _
  | some n =>
    exact .single rfl (congrArg Option.isSome h)
      ((reads_optionalCount n).field fun v (d : Draft) => { d with slotsIdle := some v }) rfl

theorem fills_processing (h : d.slotsProcessing = none) (o : Option UInt32) :
    Fills fields d (o.toList.map fun n => ⟨"slots_processing", decimal n.toNat⟩)
      { d with slotsProcessing := o.map some } := by
  cases o with
  | none =>
    cases d
    cases h
    exact .nil _
  | some n =>
    exact .single rfl (congrArg Option.isSome h)
      ((reads_optionalCount n).field fun v (d : Draft) => { d with slotsProcessing := some v }) rfl

theorem fills_error (h : d.error = none) (o : Option String) :
    Fills fields d (o.toList.map fun e => ⟨"error", writeQuoted e.toList⟩)
      { d with error := o.map some } := by
  cases o with
  | none =>
    cases d
    cases h
    exact .nil _
  | some e =>
    exact .single rfl (congrArg Option.isSome h)
      ((reads_optionalString (some e)).field fun v (d : Draft) => { d with error := some v }) rfl

end Optional

theorem fills (s : Sample) : Fills fields {} s.members s.draft := by
  have status : Fills fields {} [⟨"status", writeQuoted s.status.toList⟩]
      { status := some s.status } :=
    .single rfl rfl ((reads_string s.status).field fun v (d : Draft) => { d with status := some v })
      rfl
  have optional := ((status.append (fills_idle rfl s.slotsIdle)).append
    (fills_processing rfl s.slotsProcessing)).append (fills_error rfl s.error)
  rw [members_eq]
  exact optional.append (.single rfl rfl
    ((reads_time s.observedAtMs).field fun v (d : Draft) => { d with observedAtMs := some v }) rfl)

/-- **A sample is read back from its JSON.** -/
theorem reads_json (s : Sample) : Reads shape.read s.jsonChars s :=
  Shape.reads_object s.fills s.finish_draft

end Sample

/-! ## Reports -/

namespace Report

variable {r : Report}

theorem fills (h : r.externalAddr.IsReadable) :
    Fills fields {} r.members
      ⟨some r.agentName, some r.sessionId.text, some r.externalAddr, some r.sample⟩ := by
  refine .cons rfl rfl ((reads_optionalString r.agentName).field fun v (d : Draft) =>
    { d with agentName := some v }) ?_
  refine .cons rfl rfl ((reads_string r.sessionId.text).field fun v (d : Draft) =>
    { d with sessionId := some v }) ?_
  refine .cons rfl rfl ((reads_address h).field fun v (d : Draft) =>
    { d with externalAddr := some v }) ?_
  exact .single rfl rfl ((Sample.reads_json r.sample).field fun v (d : Draft) =>
    { d with sample := some v }) rfl

theorem ofJson?_jsonChars (h : r.externalAddr.IsReadable) :
    ofJson? (Utf8.encode r.jsonChars) = .ok r :=
  reads_document (Shape.reads_object (fills h) rfl)

/-- Every address of a draft is readable. -/
def Draft.IsReadable (d : Draft) : Prop :=
  ∀ a ∈ d.externalAddr, a.IsReadable

theorem fields_keep : ∀ field ∈ shape.fields, field.Keeps Draft.IsReadable := by
  intro field hfield bs set rest hread draft hP
  simp only [shape, fields, List.mem_cons, List.not_mem_nil, or_false] at hfield
  rcases hfield with rfl | rfl | rfl | rfl
  case inr.inr.inl =>
    obtain ⟨⟨a, rest'⟩, haddress, heq⟩ := map_eq_ok hread
    cases heq
    intro a' ha'
    cases ha'
    exact address_readable haddress
  all_goals
    obtain ⟨⟨v, rest'⟩, -, heq⟩ := map_eq_ok hread
    cases heq
    exact hP

/-- A report that was read has a readable address. -/
theorem ofJson?_readable {bs : Bytes} (h : ofJson? bs = .ok r) : r.externalAddr.IsReadable := by
  obtain ⟨rest, hread⟩ := ok_of_readDocument h
  have hblank : Draft.IsReadable {} := by simp [Draft.IsReadable]
  obtain ⟨draft, hreadable, hfinish⟩ := Shape.read_keeps fields_keep hblank hread
  obtain ⟨_, -, hfinish⟩ := bind_eq_ok hfinish
  obtain ⟨a, haddress, hfinish⟩ := bind_eq_ok hfinish
  obtain ⟨_, -, hfinish⟩ := bind_eq_ok hfinish
  cases hfinish
  exact hreadable a (required_eq_ok haddress)

/-- **The wire format loses nothing but unreadable addresses.** Every sample is read back from its
text, a report exactly if the host of its address is not empty and does not begin with white space,
and every report that was read from any text is read back from its own. -/
theorem json_round_trip :
    (∀ s : Sample, Sample.ofJson? (Utf8.encode s.jsonChars) = .ok s) ∧
    (∀ r : Report, ofJson? (Utf8.encode r.jsonChars) = .ok r ↔ r.externalAddr.IsReadable) ∧
    ∀ (bs : Bytes) (r : Report), ofJson? bs = .ok r → ofJson? (Utf8.encode r.jsonChars) = .ok r :=
  ⟨fun s => reads_document s.reads_json, fun _ => ⟨ofJson?_readable, ofJson?_jsonChars⟩,
    fun _ _ h => ofJson?_jsonChars (ofJson?_readable h)⟩

/-- A report that stands in a list comes back from the object that is written for it. -/
theorem json_round_trip_list :
    ofJson? (asciiBytes "[null,\"s\",\" h:080 \",[\"ok\",3,null,null,12]]") =
        .ok ⟨none, ⟨"s"⟩, ⟨"h", 80⟩, ⟨"ok", some 3, none, none, 12⟩⟩ ∧
      ofJson? (Utf8.encode (jsonChars ⟨none, ⟨"s"⟩, ⟨"h", 80⟩, ⟨"ok", some 3, none, none, 12⟩⟩)) =
        .ok ⟨none, ⟨"s"⟩, ⟨"h", 80⟩, ⟨"ok", some 3, none, none, 12⟩⟩ := by
  have hread : ofJson? (asciiBytes "[null,\"s\",\" h:080 \",[\"ok\",3,null,null,12]]") =
      .ok ⟨none, ⟨"s"⟩, ⟨"h", 80⟩, ⟨"ok", some 3, none, none, 12⟩⟩ :=
    ok_of_toOption (by decide +kernel)
  exact ⟨hread, json_round_trip.2.2 _ _ hread⟩

end Report

end HealthRelay
