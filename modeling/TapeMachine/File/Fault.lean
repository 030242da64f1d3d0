namespace TapeMachine

/-- Why the content of a file could not be had. -/
inductive ReadFault where
  | missing
  | notDirectory
  | isDirectory
  | nameTooLong
  | nulInName
  | notUtf8
  | other (message : String)
deriving DecidableEq

def ReadFault.message : ReadFault → String
  | missing => "No such file or directory (os error 2)"
  | notDirectory => "Not a directory (os error 20)"
  | isDirectory => "Is a directory (os error 21)"
  | nameTooLong => "File name too long (os error 36)"
  | nulInName => "file name contained an unexpected NUL byte"
  | notUtf8 => "stream did not contain valid UTF-8"
  | other message => message

/-- The bytes of a file or of an input stream, or why they could not be read. -/
abbrev Content := Except ReadFault ByteArray

def Content.text (content : Content) : Except ReadFault String := do
  match String.fromUTF8? (← content) with
  | some text => return text
  | none => throw .notUtf8

end TapeMachine
