import EditorLink.Toml.Scan

/-! What a reader is shown about a stretch of a document: its line and column, the line itself, and
carets below the stretch. -/
namespace EditorLink.Toml

def byteCount (s : List Char) : Nat := s.foldr (fun c bytes => c.utf8Size + bytes) 0

/-- The line a stretch starts on, with the stretch's place in it. Lines and columns count from
zero. -/
structure Excerpt where
  line : Nat
  column : Nat
  content : List Char
  width : Nat
deriving DecidableEq, Repr

/-- The width is the stretch's length in bytes, cut at the end of its first line, and at least
one. -/
def Excerpt.of (document : String) (span : Span) : Excerpt :=
  let s := document.toList
  let start := s.length - span.start
  let earlier := s.take start
  let column := (earlier.reverse.takeWhile (· ≠ '\n')).length
  let content := (s.drop (start - column)).takeWhile (· ≠ '\n')
  let bytes := byteCount ((s.drop start).take (span.start - span.stop))
  { line := earlier.count '\n'
    column := column
    content := content
    width := max 1 (min bytes (byteCount content - column)) }

def spaces (n : Nat) : String := String.ofList (List.replicate n ' ')

def Excerpt.render (e : Excerpt) (message : String) : String :=
  let number := toString (e.line + 1)
  let gutter := spaces (number.length + 1) ++ "|"
  let carets := String.ofList (List.replicate e.width '^')
  "TOML parse error at line " ++ number ++ ", column " ++ toString (e.column + 1) ++ "\n"
    ++ gutter ++ "\n"
    ++ number ++ " | " ++ String.ofList e.content ++ "\n"
    ++ gutter ++ spaces (e.column + 1) ++ carets ++ "\n"
    ++ message ++ "\n"

end EditorLink.Toml
