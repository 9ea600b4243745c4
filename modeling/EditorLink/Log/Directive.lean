import EditorLink.Log.Notice
import EditorLink.Text.Classes

/-! Directives say how severe a notice has to be: everywhere, or where its target starts with some
text. -/
namespace EditorLink

/-- An empty target is the start of every target. Without a limit no notice is let through. -/
structure Directive where
  target : String
  limit : Option Level
deriving DecidableEq, Repr

/-- Reading crashes where it cuts a character into two. -/
inductive DirectiveError where
  | malformed
  | unknownLevel
  | torn
deriving DecidableEq, Repr

/-- A crash has no message. -/
def DirectiveError.message : DirectiveError → Option String
  | malformed => some "invalid filter directive"
  | unknownLevel =>
    some ("error parsing level filter: expected one of \"off\", \"error\", \"warn\", \"info\", " ++
      "\"debug\", \"trace\", or a number 0-5")
  | torn => none

namespace Directive

/-- Every limit with its name, from silence on; its place is its number. -/
def limits : List (String × Option Level) :=
  [("off", none), ("error", some .error), ("warn", some .warn), ("info", some .info),
   ("debug", some .debug), ("trace", some .trace)]

def number? (cs : List Char) : Option Nat :=
  let digits := if cs.head? = some '+' then cs.tail else cs
  if digits.isEmpty || !digits.all Char.isDigit then none
  else some (digits.foldl (fun n d => 10 * n + (d.toNat - 48)) 0)

/-- A limit goes by its number or by its name in any case. -/
def limit? (cs : List Char) : Option (Option Level) :=
  match number? cs with
  | some n => limits[n]?.map Prod.snd
  | none => limits.lookup (String.ofList (cs.map Char.toLower))

/-- Letters and digits, and what joins them. -/
def startsName (c : Char) : Bool := Text.isAlphanumeric c || c = '-' || c = ':' || c = '_'

def endsName (c : Char) : Bool := c = '=' || c = ',' || c = '['

/-- A text without a level is a level of its own, or else a target that lets everything through. -/
def bare (cs : List Char) : Directive :=
  match limit? cs with
  | some limit => ⟨"", limit⟩
  | none => ⟨String.ofList cs, some .trace⟩

/-- No level after the sign is the same as the most talkative one. -/
def withLevel (target level : List Char) : Except DirectiveError Directive :=
  if level.isEmpty then .ok ⟨String.ofList target, some .trace⟩
  else match limit? level with
    | some limit => .ok ⟨String.ofList target, limit⟩
    | none => .error .unknownLevel

def trim (cs : List Char) : List Char :=
  ((cs.dropWhile Text.isBlank).reverse.dropWhile Text.isBlank).reverse

def byteCount (cs : List Char) : Nat := cs.foldl (fun n c => n + c.utf8Size) 0

/-- The part of so many bytes, and the rest. -/
def cut : List Char → Nat → Except DirectiveError (List Char × List Char)
  | cs, 0 => .ok ([], cs)
  | [], _ + 1 => .error .torn
  | c :: cs, n + 1 =>
    if c.utf8Size ≤ n + 1 then do
      let (front, rest) ← cut cs (n + 1 - c.utf8Size)
      pure (c :: front, rest)
    else .error .torn

/-- Lengths are taken from the text without the blanks around it, but the parts are cut from the
whole text. A comma may end a directive; nothing may follow it. -/
def read (text : String) : Except DirectiveError Directive :=
  let cs := text.toList
  let body := trim cs
  if !body.head?.any startsName then .error .malformed
  else
    let target := body.takeWhile fun c => !endsName c
    match body.drop target.length with
    | [] => .ok (bare cs)
    | [','] => .ok (bare cs)
    | '=' :: rest => do
      let level := rest.takeWhile (· ≠ ',')
      let (name, after) ← cut cs (byteCount target)
      let (_, after) ← cut after 1
      let directive ← withLevel name
        (← if ',' ∈ rest then Prod.fst <$> cut after (byteCount level) else pure after)
      if rest.length ≤ level.length + 1 then return directive else throw .malformed
    | _ => .error .malformed

end Directive
end EditorLink
