import ScriptLiterals.Conversion

/-!
The literal errors of open documents, as an editor shows them. Each event on a document is answered
by one notification with all errors of its text. Lines and characters count from zero.
-/

namespace ScriptLiterals.Editor

structure Place where
  line : Int
  character : Int
  deriving DecidableEq, Repr

def Place.ofPosition (p : Position) : Place := ⟨p.line - 1, p.column - 1⟩

inductive Severity
  | error
  deriving DecidableEq, Repr

def Severity.code : Severity → Nat
  | error => 1

structure Diagnostic where
  start : Place
  stop : Place
  message : Text
  severity : Severity
  source : Text
  deriving DecidableEq, Repr

def Diagnostic.ofError (e : LocatedError) : Diagnostic :=
  ⟨.ofPosition e.span.start, .ofPosition e.span.stop, e.message, .error, "numlit".toList⟩

/-- The diagnostics of the document with a given address; they replace all earlier ones. -/
structure Notification where
  uri : Text
  diagnostics : List Diagnostic
  deriving DecidableEq, Repr

inductive Event
  | opened (uri text : Text)
  | changed (uri text : Text)
  deriving DecidableEq, Repr

def Event.uri : Event → Text
  | opened uri _ => uri
  | changed uri _ => uri

def Event.text : Event → Text
  | opened _ text => text
  | changed _ text => text

structure Workspace (Store : Type) where
  put : Store → Text → Text → Store
  text : Store → Text → Text

namespace Workspace

variable {Store : Type} (workspace : Workspace Store)

/-- The text of a document is the one that was put last. -/
def ReturnsLast : Prop :=
  ∀ store uri text, workspace.text (workspace.put store uri text) uri = text

def notification (store : Store) (uri : Text) : Notification :=
  ⟨uri, (Conversion.ofSource (workspace.text store uri)).errors.map Diagnostic.ofError⟩

def handle (store : Store) (event : Event) : Store × List Notification :=
  let store := workspace.put store event.uri event.text
  (store, [workspace.notification store event.uri])

def run (store : Store) : List Event → List (List Notification)
  | [] => []
  | event :: events => (workspace.handle store event).2 :: run (workspace.handle store event).1 events

def documents : Workspace (List (Text × Text)) where
  put store uri text := (uri, text) :: store.filter (·.1 ≠ uri)
  text store uri := ((store.find? (·.1 = uri)).map (·.2)).getD []

end Workspace
end ScriptLiterals.Editor
