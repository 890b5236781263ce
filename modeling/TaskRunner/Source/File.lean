import TaskRunner.Source.Signature

/-!
# Script files

A file that has been read: its text and its outline. It answers which functions it exports, what their
signatures are, and what script it amounts to.
-/

namespace TaskRunner.Source

/-- A script file. -/
structure File where
  text : String
  outline : Outline
deriving Repr

/-- The file of a text, unless the text is malformed. -/
def File.ofText (text : String) : Except SyntaxError File := do
  let tokens ← tokenize text
  let nested ← nest tokens
  let outline ← outlineOf nested
  .ok ⟨text, outline⟩

namespace File

/-- The exports in order. -/
def exports (f : File) : List Export :=
  f.outline.exports

/-- The local name behind an exported one. -/
def localName? (f : File) (exported : String) : Option String :=
  (f.exports.find? (·.exported == exported)).map (·.name)

/-- The function of a local name. -/
def function? (f : File) (name : String) : Option LocalFunction :=
  f.outline.functions.find? (·.name == name)

/-- The signature of an exported function, or of a local one that is not exported under another name;
without parameters when there is no such function. -/
def signature (f : File) (name : String) : Signature :=
  match f.function? ((f.localName? name).getD name) with
  | some g => signatureOf name g
  | none => ⟨name, [], none⟩

/-- The exports that are functions. -/
def functionExports (f : File) : List Export :=
  f.exports.filter fun e => (f.function? e.name).isSome

/-- The signatures of the exported functions, in export order. -/
def signatures (f : File) : List Signature :=
  f.functionExports.map fun e => f.signature e.exported

/-- The file as a script. -/
def script (f : File) : String :=
  applyEdits f.text f.outline.edits

/-- The commands of the exported functions. -/
def commands (f : File) («namespace» : String) : List Command :=
  f.functionExports.map fun e =>
    (f.signature e.exported).toCommand «namespace» ((f.localName? e.exported).getD e.exported)

end File

end TaskRunner.Source
