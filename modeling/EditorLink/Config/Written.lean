import EditorLink.Config.Read

/-! Writing a configuration as a document of `key = value` lines. -/
namespace EditorLink
namespace Config

def hexPad (width n : Nat) : List Char :=
  let ds := Nat.toDigits 16 n
  List.replicate (width - ds.length) '0' ++ ds

/-- Quotes, backslashes and control characters do not stand for themselves. -/
def NeedsEscape (c : Char) : Prop := c = '"' ∨ c = '\\' ∨ c.toNat < 0x20 ∨ c.toNat = 0x7F

instance (c : Char) : Decidable (NeedsEscape c) := inferInstanceAs (Decidable (_ ∨ _))

/-- The letter after a backslash, and the character that both stand for. -/
def shortEscapes : List (Char × Char) :=
  [('b', '\x08'), ('t', '\t'), ('n', '\n'), ('f', '\x0c'), ('r', '\r'), ('"', '"'), ('\\', '\\')]

/-- The ways to escape a character: by a letter, or by its code point in hexadecimal digits, be they
small or capital. -/
inductive Escaped (c : Char) : List Char → Prop
  | short {letter : Char} (known : (letter, c) ∈ shortEscapes) : Escaped c ['\\', letter]
  | four {ds : List Char} (same : ds.map Char.toLower = hexPad 4 c.toNat) : Escaped c ('\\' :: 'u' :: ds)
  | eight {ds : List Char} (same : ds.map Char.toLower = hexPad 8 c.toNat) :
      Escaped c ('\\' :: 'U' :: ds)

/-- What a text may look like between the quotes. Only what has to be escaped is escaped. -/
inductive Spelled : List Char → List Char → Prop
  | nil : Spelled [] []
  | plain {c : Char} {s text : List Char} (free : ¬ NeedsEscape c) (others : Spelled s text) :
      Spelled (c :: s) (c :: text)
  | escape {c : Char} {s form text : List Char} (needs : NeedsEscape c) (escaped : Escaped c form)
      (others : Spelled s text) : Spelled (c :: s) (form ++ text)

def writeChar (c : Char) : List Char :=
  if c = '"' then ['\\', '"']
  else if c = '\\' then ['\\', '\\']
  else if c.toNat < 0x20 || c.toNat = 0x7F then ['\\', 'u'] ++ hexPad 4 c.toNat
  else [c]

/-- The identifier is spelled as given. -/
def writeValue (c : Config) (id : List Char) : Field → List Char
  | .editorId => '"' :: id ++ ['"']
  | .stopTimeout => Nat.toDigits 10 c.stopTimeout.toNat
  | .pollInterval => Nat.toDigits 10 c.pollInterval.toNat
  | .live => if c.live then ['t', 'r', 'u', 'e'] else ['f', 'a', 'l', 's', 'e']

def writeLine (c : Config) (id : List Char) (field : Field) : List Char :=
  field.key.toList ++ [' ', '=', ' '] ++ c.writeValue id field ++ ['\n']

/-- The lines of the given fields, in the given order. -/
def writeAs (c : Config) (id : List Char) (fields : List Field) : String :=
  String.ofList (fields.flatMap (c.writeLine id))

def write (c : Config) (fields : List Field) : String :=
  c.writeAs (c.editorId.toList.flatMap writeChar) fields

/-- The field holds what it would hold if its line were left out. -/
def IsDefault (c : Config) : Field → Prop
  | .editorId => c.editorId = ({} : Config).editorId
  | .stopTimeout => c.stopTimeout = ({} : Config).stopTimeout
  | .pollInterval => c.pollInterval = ({} : Config).pollInterval
  | .live => c.live = ({} : Config).live

end Config
end EditorLink
