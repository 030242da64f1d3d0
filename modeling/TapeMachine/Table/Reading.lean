import TapeMachine.Rule.Line
import TapeMachine.Table
import TapeMachine.Text.Quoted

namespace TapeMachine

/-- Whether a line that is no rule is passed over or refused. -/
inductive Mode where
  | normal
  | strict
deriving DecidableEq

/-- A line that is not white throughout and holds no rule. Lines are numbered from 1. -/
structure MalformedLine where
  line : Nat
  content : String
deriving DecidableEq

def MalformedLine.message (fault : MalformedLine) : String :=
  s!"Malformed transition on line {fault.line}: {Text.quoted fault.content}"

namespace Table

def lines (text : String) : List String := (text.toList.splitOn '\n').map String.ofList

/-- The rules on the lines of `text` that hold one. -/
def ofText (text : String) : Table := ⟨(lines text).filterMap Rule.ofLine?⟩

/-- The rules on lines that are numbered from `line`. -/
def strictRules (line : Nat) : List String → Except MalformedLine (List Rule)
  | [] => .ok []
  | first :: rest =>
    let content := Text.trim first.toList
    if content.isEmpty then strictRules (line + 1) rest
    else match Rule.ofLine? first with
      | none => .error ⟨line, String.ofList content⟩
      | some rule => (rule :: ·) <$> strictRules (line + 1) rest

/-- The rules of `text`, every line of which is a rule or white. -/
def ofTextStrict (text : String) : Except MalformedLine Table :=
  Table.mk <$> strictRules 1 (lines text)

def ofTextIn (mode : Mode) (text : String) : Except MalformedLine Table :=
  match mode with
  | .normal => .ok (ofText text)
  | .strict => ofTextStrict text

end Table

end TapeMachine
