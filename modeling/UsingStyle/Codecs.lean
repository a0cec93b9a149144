/-! # Codecs

Which encodings there are is a matter of the system that the program runs on. The program asks the
system for a codec by its name and, if the codec is an encoding of text, has it decode a file. What
is proved of settings, files and runs is proved for any codecs.

A decoder is asked to replace the bytes that it cannot read, but it may refuse them all the same.
What it gives are characters. Decoders that let halves of surrogate pairs through, which are no
characters, are covered as far as they do not.
-/

namespace UsingStyle

/-- What the name of an encoding may stand for. -/
inductive Codec where
  /-- An encoding of text. Its decoder gives the characters that bytes spell, or the words with
  which it refuses them. -/
  | text (decode : List UInt8 → Except String (List Char))
  /-- A transformation that is no encoding of text. -/
  | transform

/-- The codecs that a system knows. -/
structure Codecs where
  /-- What a name stands for, if it stands for anything. -/
  lookup? : String → Option Codec

end UsingStyle
