import HealthRelay.Proofs.Text.Utf8
import HealthRelay.Proofs.Toml.Document
import HealthRelay.Settings.Toml

/-!
# Settings come back from their TOML

The text of some settings is three sections of texts, each with its keys in a fixed order. Reading
it leads to three tables with the rows of those texts, and a table of rows gives back the texts that
its rows were made of (`textRows_section?`).
-/

namespace HealthRelay.Settings

open Toml

/-! ## Sections -/

def agentTexts (s : Settings) : Texts :=
  [("name", s.agent.name), ("reporting_interval", s.agent.reportingInterval)]

def serverTexts (s : Settings) : Texts :=
  [("local_addr", s.server.localAddr), ("external_addr", s.server.externalAddr),
    ("api_key", s.server.apiKey)]

def managementTexts (s : Settings) : Texts :=
  [("addr", s.management.addr)]

theorem tomlChars_eq (s : Settings) :
    s.tomlChars = writeHeader "agent" ++ writeLines s.agentTexts ++ ['\n'] ++
      (writeHeader "llamacpp" ++ writeLines s.serverTexts) ++ ['\n'] ++
      (writeHeader "management" ++ writeLines s.managementTexts) := by
  simp only [tomlChars, writeLines, agentTexts, serverTexts, managementTexts, List.flatMap_cons,
    List.flatMap_nil, List.append_nil, List.append_assoc, List.cons_append, List.nil_append]

theorem mapM_textOf? {rows : Rows} {texts : Texts}
    (h : ∀ t ∈ texts, rows.get? t.1 = t.2.map .text) :
    (texts.map (·.1)).mapM (textOf? rows) = some (texts.map (·.2)) := by
  induction texts with
  | nil => rfl
  | cons t texts ih =>
    have hrest := ih fun u hu => h u (List.mem_cons_of_mem _ hu)
    have ht : textOf? rows t.1 = some t.2 := by
      rw [textOf?, h t List.mem_cons_self]
      cases t.2 <;> rfl
    simp only [List.map_cons, List.mapM_cons, ht, hrest]
    rfl

/-- **A table gives back the texts that its rows were made of.** -/
theorem textRows_section? {α : Type} (count : Nat) (ofTexts : List (Option String) → Option α)
    (nature : Nature) (texts : Texts) (hkeys : AreKeys (texts.map (·.1))) :
    (section? count ofTexts (texts.map (·.1)) (some (.table nature (textRows texts)))) =
      ofTexts (texts.map (·.2)) := by
  rw [section?, mapM_textOf? fun t ht => get?_textRows hkeys.nodup ht, Option.bind_some]

theorem areKeys_agent : AreKeys ["name", "reporting_interval"] := ⟨by decide, by decide⟩

theorem areKeys_server : AreKeys ["local_addr", "external_addr", "api_key"] :=
  ⟨by decide, by decide⟩

theorem areKeys_management : AreKeys ["addr"] := ⟨by decide, by decide⟩

/-! ## The whole text -/

/-- The rows of a text of settings. -/
def tomlRows (s : Settings) : Rows :=
  [("agent", .table .explicit (textRows s.agentTexts)),
    ("llamacpp", .table .explicit (textRows s.serverTexts)),
    ("management", .table .explicit (textRows s.managementTexts))]

theorem readDocument_tomlChars (s : Settings) : readDocument s.tomlChars = some s.tomlRows := by
  have agent : Document.Leads .empty (writeHeader "agent" ++ writeLines s.agentTexts)
      (.inSection [] "agent" (textRows s.agentTexts)) :=
    Document.leads_section (by decide) rfl areKeys_agent
  have server : Document.Leads (.inSection [] "agent" (textRows s.agentTexts))
      (writeHeader "llamacpp" ++ writeLines s.serverTexts)
      (.inSection [("agent", .table .explicit (textRows s.agentTexts))] "llamacpp"
        (textRows s.serverTexts)) :=
    Document.leads_section (by decide) rfl areKeys_server
  have management : Document.Leads
      (.inSection [("agent", .table .explicit (textRows s.agentTexts))] "llamacpp"
        (textRows s.serverTexts))
      (writeHeader "management" ++ writeLines s.managementTexts) ⟨s.tomlRows, ["management"]⟩ :=
    Document.leads_section (by decide) rfl areKeys_management
  have hlines := (((agent.append (Document.leads_blank _)).append server).append
    (Document.leads_blank _)).append management
  rw [← tomlChars_eq] at hlines
  exact readDocument_of_leads hlines (by simp [tomlChars, writeHeader])

theorem ofRows?_tomlRows (s : Settings) : ofRows? s.tomlRows = some s := by
  have agent : section? 2 agentOf? ["name", "reporting_interval"] (s.tomlRows.get? "agent") =
      some s.agent :=
    textRows_section? 2 agentOf? .explicit s.agentTexts areKeys_agent
  have server : section? 3 serverOf? ["local_addr", "external_addr", "api_key"]
      (s.tomlRows.get? "llamacpp") = some s.server :=
    textRows_section? 3 serverOf? .explicit s.serverTexts areKeys_server
  have management : section? 1 managementOf? ["addr"] (s.tomlRows.get? "management") =
      some s.management :=
    textRows_section? 1 managementOf? .explicit s.managementTexts areKeys_management
  rw [ofRows?, agent, server, management]
  rfl

/-- **Every settings come back from their own text**, and from the bytes of a file with it. -/
theorem toml_round_trip (s : Settings) :
    ofToml? s.tomlChars = .ok s ∧
      ∀ path, ofFile? path (.ok (Text.Utf8.encode s.tomlChars)) = .ok s := by
  have htext : ofToml? s.tomlChars = .ok s := by
    rw [ofToml?, readDocument_tomlChars, Option.bind_some, ofRows?_tomlRows]
  refine ⟨htext, fun path => ?_⟩
  rw [ofFile?, Text.Utf8.decode?_encode]
  exact htext

end HealthRelay.Settings
