import AccessTransformer.Json.Token

/-!
# Trees of JSON texts

The structure of a text as far as it goes.  The first place where a text is not JSON ends its tree:
a gap stands where a value should be, or an array or object ends without having been closed.  What
stands before that place is complete, so a reader that goes through a tree in the order of the text
meets the first problem first, whether that is a gap or a value of the wrong shape.

What a gap is called depends on what the reader wants there.  A reader that wants a string, or an
alternative that starts with one, does not even look into another scalar; so a gap keeps the
character that stands in its place beside the fault of the scalar itself.

An array or object that lies too deep is not entered.  It ends at once, and it is malformed.

* `Tree.ofTokens`: the tree that tokens spell, and the tokens behind it.
-/

namespace AccessTransformer.Json

/-- A place where a value or a key should start and none does. -/
structure Gap where
  /-- The character in this place, if the text has not ended. -/
  lead : Option Char
  /-- What is wrong with the value that starts here. -/
  fault : Fault
  deriving DecidableEq, Repr

/-- The fault of a gap where nothing but a string may stand. -/
def Gap.keyFault (gap : Gap) : Fault :=
  if gap.lead = none ∨ gap.lead = some '"' then gap.fault else .malformed

/-- How the items or members of a container end. -/
inductive Tail where
  /-- With the container. -/
  | closed
  /-- With what can neither follow nor close. -/
  | unclosed (fault : Fault)
  /-- With a gap in the place of a key. -/
  | keyless (gap : Gap)
  deriving DecidableEq, Repr

/-- A value, as far as the text has it. -/
inductive Tree where
  | scalar (s : Scalar)
  | array (items : List Tree) (tail : Tail)
  | object (members : List (String × Tree)) (tail : Tail)
  | gap (gap : Gap)

/-! ## Gaps -/

/-- The character that a token starts with. -/
def Token.lead : Token → Char
  | .openBracket => '['
  | .closeBracket => ']'
  | .openBrace => '\x7b'
  | .closeBrace => '\x7d'
  | .comma => ','
  | .colon => ':'
  | .scalar .null => 'n'
  | .scalar (.bool true) => 't'
  | .scalar (.bool false) => 'f'
  | .scalar (.number _) => '0'
  | .scalar (.string _) => '"'
  | .broken lead _ => lead

namespace Gap

/-- The gap at the end of a text. -/
def atEnd : Gap := ⟨none, .truncated⟩

/-- The gap where a token stands that may not stand there. -/
def ofToken (token : Token) : Gap where
  lead := some token.lead
  fault :=
    match token with
    | .broken _ fault => fault
    | _ => .malformed

end Gap

namespace Tree

/-! ## Places -/

/-- A container whose next item or value is being read.  Items and members are in reverse. -/
inductive Frame where
  | array (items : List Tree)
  | object (members : List (String × Tree)) (key : String)

/-- What is expected, inside the innermost container.  Items and members are in reverse. -/
inductive Place where
  /-- A value. -/
  | value
  /-- The first item of an array, or its end. -/
  | firstItem
  /-- A key, or the end of an object without members. -/
  | key (members : List (String × Tree))
  /-- The colon behind a key. -/
  | colon (members : List (String × Tree)) (key : String)
  /-- A comma, or the end of an array. -/
  | behindItem (items : List Tree)
  /-- A comma, or the end of an object. -/
  | behindMember (members : List (String × Tree))

/-- What a token does to the place it is met in. -/
inductive Move where
  /-- It completes the value. -/
  | complete (tree : Tree)
  /-- It leads to another place, inside one more container if there is a frame. -/
  | advance (frame : Option Frame) (place : Place)
  /-- It ends the tree. -/
  | stop (tree : Tree)

/-- The most containers that can lie around each other. -/
def maxDepth : Nat := 127

/-- What a token starts that stands where a value should start, with so many containers around
it. -/
def start (depth : Nat) : Token → Move
  | .scalar s => .complete (.scalar s)
  | .openBracket =>
    if depth < maxDepth then .advance none .firstItem else .stop (.array [] (.unclosed .malformed))
  | .openBrace =>
    if depth < maxDepth then .advance none (.key [])
    else .stop (.object [] (.unclosed .malformed))
  | token => .stop (.gap (Gap.ofToken token))

/-- The value around what is being read in the frame, when that ends the tree. -/
def Frame.cut (frame : Frame) (tree : Tree) : Tree :=
  match frame with
  | .array items => .array (tree :: items).reverse (.unclosed .truncated)
  | .object members key => .object ((key, tree) :: members).reverse (.unclosed .truncated)

/-- The place behind what was read in the frame. -/
def Frame.resume (frame : Frame) (tree : Tree) : Place :=
  match frame with
  | .array items => .behindItem (tree :: items)
  | .object members key => .behindMember ((key, tree) :: members)

/-- The first move in a container. -/
def Move.inside (frame : Frame) : Move → Move
  | .complete tree => .advance none (frame.resume tree)
  | .advance _ place => .advance (some frame) place
  | .stop tree => .stop (frame.cut tree)

/-- What a token does in a place, with so many containers around that of the place. -/
def Place.step (depth : Nat) : Place → Token → Move
  | .value, token => start depth token
  | .firstItem, .closeBracket => .complete (.array [] .closed)
  | .firstItem, token => (start (depth + 1) token).inside (.array [])
  | .key members, .scalar (.string name) => .advance none (.colon members name)
  | .key [], .closeBrace => .complete (.object [] .closed)
  | .key members, token => .stop (.object members.reverse (.keyless (Gap.ofToken token)))
  | .colon members name, .colon => .advance (some (.object members name)) .value
  | .colon members name, token =>
    .stop ((Frame.object members name).cut (.gap ⟨some token.lead, .malformed⟩))
  | .behindItem items, .comma => .advance (some (.array items)) .value
  | .behindItem items, .closeBracket => .complete (.array items.reverse .closed)
  | .behindItem items, _ => .stop (.array items.reverse (.unclosed .malformed))
  | .behindMember members, .comma => .advance none (.key members)
  | .behindMember members, .closeBrace => .complete (.object members.reverse .closed)
  | .behindMember members, _ => .stop (.object members.reverse (.unclosed .malformed))

/-- What a text that ends in a place leaves of the value there. -/
def Place.atEnd : Place → Tree
  | .value => .gap Gap.atEnd
  | .firstItem => .array [] (.unclosed .truncated)
  | .key members => .object members.reverse (.keyless Gap.atEnd)
  | .colon members name => (Frame.object members name).cut (.gap Gap.atEnd)
  | .behindItem items => .array items.reverse (.unclosed .truncated)
  | .behindMember members => .object members.reverse (.unclosed .truncated)

/-! ## Reading -/

/-- The value around all frames, the innermost first, when the tree ends in the innermost. -/
def cut (frames : List Frame) (tree : Tree) : Tree :=
  frames.foldl (fun tree frame => frame.cut tree) tree

/-- The tree that is complete when the tokens from a place on are read, and the tokens behind
it. -/
def run (place : Place) (frames : List Frame) : List Token → Tree × List Token
  | [] => (cut frames place.atEnd, [])
  | token :: tokens =>
    match place.step frames.length token with
    | .advance frame place => run place (frame.toList ++ frames) tokens
    | .stop tree => (cut frames tree, [])
    | .complete tree =>
      match frames with
      | [] => (tree, tokens)
      | frame :: frames => run (frame.resume tree) frames tokens

/-- The tree of the value at the start of tokens, and the tokens behind it. -/
def ofTokens (tokens : List Token) : Tree × List Token := run .value [] tokens

end Tree

end AccessTransformer.Json
