import PerfRelay.Configuration.Basic
import PerfRelay.Json.Printer
import PerfRelay.Json.Record
import PerfRelay.Text.Blank

/-!
# Configuration documents

The text in a reply is a JSON document with a list of configurations.  A data type whose output
stream is not a string is noted and left out; everything else that is not of the expected shape
makes the whole document unreadable.  What was noted before that stays noted.

Main results:

- Theorem `ofDocument_blank`: a blank text has no configurations.
-/

namespace PerfRelay

namespace Configuration

/-- What has been read of a document. -/
structure Draft where
  /-- The configurations that are complete, the last one first. -/
  complete : List Configuration
  /-- The configuration that is being read. -/
  current : Configuration
  /-- What was noted, the last note first. -/
  notes : List Entry

/-- The output streams among the members of an object: those that are strings. -/
def streamsOf (members : List (String × Json.Value)) : List (String × String) :=
  members.filterMap fun (dataType, stream) => stream.asString?.map (dataType, ·)

/-- What is noted about a member that should be an output stream. -/
def streamNote? : String × Json.Value → Option Entry
  | (_, .string _) => none
  | (dataType, other) =>
    some (.warn s!"ignoring non-string output stream for {dataType}: {other.text}")

namespace Draft

/-- Nothing has been read. -/
def start : Draft := ⟨[], .empty, []⟩

/-- Begins a configuration. -/
def openNext (draft : Draft) : Draft :=
  { draft with current := .empty }

/-- Ends a configuration. -/
def closeCurrent (draft : Draft) : Draft :=
  { draft with complete := draft.current :: draft.complete }

/-- Enters the output streams of the current configuration; a null stands for no streams. -/
def enterStreams (members : Option (List (String × Json.Value))) (draft : Draft) : Draft :=
  let members := members.getD []
  { draft with
    current := { draft.current with outputStreams := streamsOf members }
    notes := (members.filterMap streamNote?).reverse ++ draft.notes }

/-- Enters the settings of the current configuration; a null stands for none. -/
def enterSettings (members : Option (List (String × Json.Value))) (draft : Draft) : Draft :=
  { draft with current := { draft.current with settings := members.map Settings.ofMembers } }

end Draft

/-! ## The shape of a document -/

/-- The output streams, an object inside a configuration inside the list inside the document. -/
def streamsField : Json.Field Draft :=
  ⟨"outputStreams", .ofReader (Json.readNullable (Json.readObject 3)) Draft.enterStreams
    (Json.readNullable_length Json.readObject_length)⟩

/-- The data collection settings, an object one level deeper than the output streams. -/
def collectionField : Json.Field Draft :=
  ⟨"dataCollectionSettings", .ofReader (Json.readNullable (Json.readObject 4)) Draft.enterSettings
    (Json.readNullable_length Json.readObject_length)⟩

/-- The settings of an extension. -/
def settingsField : Json.Field Draft :=
  ⟨"extensionSettings", .record [collectionField]⟩

/-- One configuration. -/
def item : Json.Fold Draft where
  run draft s :=
    ((Json.Fold.record [streamsField, settingsField]).run draft.openNext s).map
      fun (draft, rest) => (draft.closeCurrent, rest)
  moves {draft _ s _} h := by
    cases hrun : (Json.Fold.record [streamsField, settingsField]).run draft.openNext s with
    | error => rw [hrun] at h; cases h
    | ok => rw [hrun] at h; cases h; exact Json.Fold.moves _ hrun

/-- A whole document. -/
def document : Json.Fold Draft :=
  .record [⟨"extensionConfigurations", .list item⟩]

/-! ## Reading -/

/-- Reads the document in a text.  A blank text is the document without configurations. -/
def ofDocument (text : String) : Noted Entry (Except Json.Stop (List Configuration)) :=
  if trimBlank text.toList = [] then ⟨.ok [], []⟩
  else
    match document.document .start (Utf8.encode text) with
    | .ok draft => ⟨.ok draft.complete.reverse, draft.notes.reverse⟩
    | .error (stop, draft) => ⟨.error stop, draft.notes.reverse⟩

theorem ofDocument_blank {text : String} (h : trimBlank text.toList = []) :
    ofDocument text = ⟨.ok [], []⟩ := by
  rw [ofDocument, if_pos h]

end Configuration

/-- Reads settings that stand alone. -/
def Settings.ofJson (text : String) : Except Json.Stop Settings :=
  (Json.readDocument (Json.readObject 0) (Utf8.encode text)).map Settings.ofMembers

end PerfRelay
