/-!
# What a session writes

A session writes to two streams: its output, where prints and traces go, and its reports of
errors. The transcript keeps what was written in one order, because both streams may end up in the
same place.

Streams are idealised: they are always open and take every text. A host whose stream has an encoding
without some of the characters would end a write with an error of its own.
-/

namespace LoxLang

/-- Where a text is written to. -/
inductive Stream
  | output
  | reports
deriving DecidableEq

/-- Everything that was written, in order. -/
structure Transcript where
  entries : Array (Stream × String) := #[]

namespace Transcript

/-- The transcript with one more text. -/
def write (transcript : Transcript) (stream : Stream) (text : String) : Transcript :=
  ⟨transcript.entries.push (stream, text)⟩

/-- The transcript with more lines in the output. -/
def printAll (transcript : Transcript) (lines : Array String) : Transcript :=
  lines.foldl (fun transcript line => transcript.write .output (line ++ "\n")) transcript

/-- All that was written to one stream. -/
def on (transcript : Transcript) (stream : Stream) : String :=
  String.join ((transcript.entries.toList.filter (·.1 == stream)).map (·.2))

/-- All that was written to either stream, in order. -/
def text (transcript : Transcript) : String :=
  String.join (transcript.entries.toList.map (·.2))

end Transcript

end LoxLang
