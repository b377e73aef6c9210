import AccessTransformer.Json.Shape
import AccessTransformer.Json.Value
import AccessTransformer.Proofs.Json.Number
import AccessTransformer.Proofs.Json.Quoted
import AccessTransformer.Proofs.Json.Tree

/-!
# Written values are read back

The text of a value is cut into the tokens that it was written with, and these spell the tree of the
value.  Both are followed at once: a place of the tree stands in front of what is left of the text,
and behind the last character of the value the value is complete.

Two things can be in the way.  A text that nests too deeply is not read, and neither is a number
that a double cannot hold, so a value has to fit in a room for containers around each other.

* `Value.Fits`: the values that can be read back with some room.
* `Tree.IsOf`: the tree of a whole text.
* `Value.read_compact`: the text of such a value is read as the tree of the value.
-/

namespace AccessTransformer.Json

/-! ## Tokens -/

namespace Token

variable {c : Char} {text rest : List Char}

theorem ofText_of_mark {mark : Token} (hblank : isBlank c = false) (hmark : mark? c = some mark) :
    ofText (c :: text) = mark :: ofText text := by
  rw [ofText, hblank, hmark]
  rfl

theorem ofText_of_scalar {s : Scalar} (hblank : isBlank c = false) (hmark : mark? c = none)
    (hscalar : scalar? c text = .ok (s, rest)) : ofText (c :: text) = .scalar s :: ofText rest := by
  rw [ofText, hblank, hmark]
  simp only [Bool.false_eq_true, if_false]
  split
  · rename_i heq
    cases heq.symm.trans hscalar
  · rename_i heq
    cases heq.symm.trans hscalar
    rfl

theorem ofText_openBracket : ofText ('[' :: text) = .openBracket :: ofText text :=
  ofText_of_mark rfl rfl

theorem ofText_closeBracket : ofText (']' :: text) = .closeBracket :: ofText text :=
  ofText_of_mark rfl rfl

theorem ofText_openBrace : ofText ('\x7b' :: text) = .openBrace :: ofText text :=
  ofText_of_mark rfl rfl

theorem ofText_closeBrace : ofText ('\x7d' :: text) = .closeBrace :: ofText text :=
  ofText_of_mark rfl rfl

theorem ofText_comma : ofText (',' :: text) = .comma :: ofText text :=
  ofText_of_mark rfl rfl

theorem ofText_colon : ofText (':' :: text) = .colon :: ofText text :=
  ofText_of_mark rfl rfl

theorem ofText_quoted_append (s : String) :
    ofText (Value.quoted s ++ rest) = .scalar (.string s) :: ofText rest := by
  have htext : Value.quoted s ++ rest
      = '"' :: (s.toList.flatMap Quoted.encodeChar ++ '"' :: rest) := by
    simp [Value.quoted, Quoted.encode]
  rw [htext]
  refine ofText_of_scalar rfl rfl ?_
  rw [scalar?, if_pos rfl, Quoted.scan_flatMap_encodeChar]
  show Except.ok (Scalar.string (String.ofList s.toList), rest) = _
  rw [String.ofList_toList]

theorem isBlank_eq_false_of_isDigit (h : c.isDigit = true) : isBlank c = false := by
  have hne (d : Char) (hd : d.isDigit = false) : c ≠ d := fun heq => nomatch hd ▸ heq ▸ h
  simp [isBlank, hne]

theorem mark?_eq_none_of_isDigit (h : c.isDigit = true) : mark? c = none := by
  have hne (d : Char) (hd : d.isDigit = false) : c ≠ d := fun heq => nomatch hd ▸ heq ▸ h
  simp [mark?, hne]

theorem ofText_toDigits_append {n : Nat} (hn : n < Nat.pow 2 53) (h : Number.Ends rest) :
    ofText (Nat.toDigits 10 n ++ rest) = .scalar (.number (.natural n)) :: ofText rest := by
  obtain ⟨digit, digits, hdigits⟩ := List.exists_cons_of_ne_nil (@Nat.toDigits_ne_nil n 10)
  have hdigit : digit.isDigit = true :=
    Number.isDigit_of_mem_toDigits digit (hdigits ▸ List.mem_cons_self)
  have hscan := Number.scan_toDigits_append hn h
  rw [hdigits, List.cons_append] at hscan ⊢
  refine ofText_of_scalar (isBlank_eq_false_of_isDigit hdigit) (mark?_eq_none_of_isDigit hdigit) ?_
  have hne (d : Char) (hd : d.isDigit = false) : digit ≠ d :=
    fun heq => nomatch hd ▸ heq ▸ hdigit
  rw [scalar?, if_neg (hne _ rfl), if_neg (hne _ rfl), if_neg (hne _ rfl), if_neg (hne _ rfl),
    if_pos (.inr hdigit), hscan]
  rfl

theorem ofText_null : ofText ('n' :: 'u' :: 'l' :: 'l' :: rest) = .scalar .null :: ofText rest :=
  ofText_of_scalar rfl rfl rfl

theorem ofText_true :
    ofText ('t' :: 'r' :: 'u' :: 'e' :: rest) = .scalar (.bool true) :: ofText rest :=
  ofText_of_scalar rfl rfl rfl

theorem ofText_false :
    ofText ('f' :: 'a' :: 'l' :: 's' :: 'e' :: rest) = .scalar (.bool false) :: ofText rest :=
  ofText_of_scalar rfl rfl rfl

end Token

/-! ## Places -/

namespace Tree

/-- What is read when the value behind some frames is complete. -/
def complete (frames : List Frame) (tree : Tree) (tokens : List Token) : Tree × List Token :=
  match frames with
  | [] => (tree, tokens)
  | frame :: frames => run (frame.resume tree) frames tokens

variable {frames : List Frame} {place next : Place} {token : Token} {tokens : List Token}
  {tree : Tree}

theorem run_of_complete (h : place.step frames.length token = .complete tree) :
    run place frames (token :: tokens) = complete frames tree tokens := by
  rw [run, h]
  cases frames <;> rfl

theorem run_of_advance {frame : Option Frame}
    (h : place.step frames.length token = .advance frame next) :
    run place frames (token :: tokens) = run next (frame.toList ++ frames) tokens := by
  rw [run, h]

theorem run_openBracket (h : frames.length < maxDepth) :
    run .value frames (.openBracket :: tokens) = run .firstItem frames tokens := by
  have hstep : Place.value.step frames.length .openBracket = .advance none .firstItem := if_pos h
  exact run_of_advance hstep

theorem run_openBrace (h : frames.length < maxDepth) :
    run .value frames (.openBrace :: tokens) = run (.key []) frames tokens := by
  have hstep : Place.value.step frames.length .openBrace = .advance none (.key []) := if_pos h
  exact run_of_advance hstep

theorem run_nextItem {items : List Tree} :
    run (.behindItem items) frames (.comma :: tokens)
      = run .value (.array items :: frames) tokens := by
  have hstep : (Place.behindItem items).step frames.length .comma
      = .advance (some (.array items)) .value := rfl
  exact run_of_advance hstep

theorem run_nextMember {members : List (String × Tree)} :
    run (.behindMember members) frames (.comma :: tokens) = run (.key members) frames tokens := by
  have hstep : (Place.behindMember members).step frames.length .comma
      = .advance none (.key members) := rfl
  exact run_of_advance hstep

/-- A key and a colon lead to the value of a member. -/
theorem run_member {members : List (String × Tree)} {key : String} :
    run (.key members) frames (.scalar (.string key) :: .colon :: tokens)
      = run .value (.object members key :: frames) tokens := by
  have hkey : (Place.key members).step frames.length (.scalar (.string key))
      = .advance none (.colon members key) := by
    cases members <;> rfl
  have hcolon : (Place.colon members key).step frames.length .colon
      = .advance (some (.object members key)) .value := rfl
  rw [run_of_advance hkey]
  exact run_of_advance hcolon

/-- A bracket that is not closed at once has an item behind it. -/
theorem run_firstItem (h : token ≠ .closeBracket) :
    run .firstItem frames (token :: tokens)
      = run .value (.array [] :: frames) (token :: tokens) := by
  have hstep : Place.firstItem.step frames.length token
      = (start (frames.length + 1) token).inside (.array []) := by
    cases token <;> first | rfl | exact absurd rfl h
  have hvalue : Place.value.step (Frame.array [] :: frames).length token
      = start (frames.length + 1) token := rfl
  rcases hmove : start (frames.length + 1) token with tree | ⟨frame, place⟩ | tree
  · rw [run, run, hstep, hvalue, hmove]
    rfl
  · obtain rfl := eq_none_of_start_eq_advance hmove
    rw [run, run, hstep, hvalue, hmove]
    rfl
  · rw [run, run, hstep, hvalue, hmove]
    rfl

end Tree

/-! ## Whole texts -/

/-- Whether a whole text has the tree, and nothing behind it. -/
def Tree.IsOf (tree : Tree) (text : String) : Prop :=
  Tree.ofTokens (Token.ofText text.toList) = (tree, [])

/-- A whole text is read as its tree is. -/
theorem Tree.IsOf.read_eq {tree : Tree} {text : String} (h : tree.IsOf text) {α : Type}
    (shape : Tree → Except Fault α) : Tree.read shape text = shape tree := by
  rw [Tree.read, h]
  cases hshape : shape tree with
  | error fault => simp only [hshape]; rfl
  | ok a => simp only [hshape]; rfl

/-! ## Values -/

namespace Value

mutual

/-- The tree of a value. -/
def tree : Value → Tree
  | .null => .scalar .null
  | .bool b => .scalar (.bool b)
  | .natural n => .scalar (.number (.natural n))
  | .string s => .scalar (.string s)
  | .array items => .array (trees items) .closed
  | .object members => .object (memberTrees members) .closed

/-- The trees of some items. -/
def trees : List Value → List Tree
  | [] => []
  | item :: items => tree item :: trees items

/-- The members with the trees of their values. -/
def memberTrees : List (String × Value) → List (String × Tree)
  | [] => []
  | (key, value) :: members => (key, tree value) :: memberTrees members

end

/-- The values that have only numbers of up to 53 bits, and at most so many containers around each
other. -/
inductive Fits : Nat → Value → Prop
  | null {room : Nat} : Fits room .null
  | bool {room : Nat} (b : Bool) : Fits room (.bool b)
  | natural {room n : Nat} (h : n < Nat.pow 2 53) : Fits room (.natural n)
  | string {room : Nat} (s : String) : Fits room (.string s)
  | array {room : Nat} {items : List Value} (h : ∀ item ∈ items, Fits room item) :
    Fits (room + 1) (.array items)
  | object {room : Nat} {members : List (String × Value)}
    (h : ∀ member ∈ members, Fits room member.2) : Fits (room + 1) (.object members)

theorem trees_eq_map (items : List Value) : trees items = items.map tree := by
  induction items with
  | nil => rfl
  | cons item items ih => rw [trees, ih, List.map_cons]

/-! ## Reading back -/

theorem ends_restOfItems_append (items : List Value) (rest : List Char) :
    Number.Ends (restOfItems items ++ rest) := by
  cases items <;> exact fun c hc => Option.some.inj hc ▸ by decide

theorem ends_restOfMembers_append (members : List (String × Value)) (rest : List Char) :
    Number.Ends (restOfMembers members ++ rest) := by
  cases members <;> exact fun c hc => Option.some.inj hc ▸ by decide

/-- The text of a value does not start with the end of an array. -/
theorem exists_ofText_compactChars {room : Nat} {value : Value} (hfits : value.Fits room)
    {rest : List Char} (hends : Number.Ends rest) :
    ∃ token tokens, Token.ofText (value.compactChars ++ rest) = token :: tokens ∧
      token ≠ .closeBracket := by
  cases hfits with
  | null => exact ⟨_, _, Token.ofText_null, nofun⟩
  | bool b => cases b with
    | true => exact ⟨_, _, Token.ofText_true, nofun⟩
    | false => exact ⟨_, _, Token.ofText_false, nofun⟩
  | natural h => exact ⟨_, _, Token.ofText_toDigits_append h hends, nofun⟩
  | string s => exact ⟨_, _, Token.ofText_quoted_append s, nofun⟩
  | @array _ items => cases items with
    | nil => exact ⟨_, _, Token.ofText_openBracket, nofun⟩
    | cons item items => exact ⟨_, _, Token.ofText_openBracket, nofun⟩
  | @object _ members => cases members with
    | nil => exact ⟨_, _, Token.ofText_openBrace, nofun⟩
    | cons member members => exact ⟨_, _, Token.ofText_openBrace, nofun⟩

mutual

theorem run_compactChars_append {room : Nat} {frames : List Tree.Frame} {rest : List Char}
    (hroom : frames.length + room ≤ Tree.maxDepth) (hends : Number.Ends rest) :
    ∀ {value : Value}, value.Fits room →
      Tree.run .value frames (Token.ofText (value.compactChars ++ rest))
        = Tree.complete frames value.tree (Token.ofText rest)
  | .null, _ => by
    rw [show Value.null.compactChars ++ rest = 'n' :: 'u' :: 'l' :: 'l' :: rest from rfl,
      Token.ofText_null]
    exact Tree.run_of_complete rfl
  | .bool true, _ => by
    rw [show (Value.bool true).compactChars ++ rest = 't' :: 'r' :: 'u' :: 'e' :: rest from rfl,
      Token.ofText_true]
    exact Tree.run_of_complete rfl
  | .bool false, _ => by
    rw [show (Value.bool false).compactChars ++ rest = 'f' :: 'a' :: 'l' :: 's' :: 'e' :: rest
      from rfl, Token.ofText_false]
    exact Tree.run_of_complete rfl
  | .natural n, .natural hn => by
    rw [compactChars, Token.ofText_toDigits_append hn hends]
    exact Tree.run_of_complete rfl
  | .string s, _ => by
    rw [compactChars, Token.ofText_quoted_append]
    exact Tree.run_of_complete rfl
  | .array [], .array _ => by
    rw [show (Value.array []).compactChars ++ rest = '[' :: ']' :: rest from rfl,
      Token.ofText_openBracket, Token.ofText_closeBracket, Tree.run_openBracket (by omega)]
    exact Tree.run_of_complete rfl
  | .array (item :: items), .array h => by
    obtain ⟨hitem, hitems⟩ := List.forall_mem_cons.mp h
    have hends' := ends_restOfItems_append items rest
    obtain ⟨token, tokens, htokens, htoken⟩ := exists_ofText_compactChars hitem hends'
    rw [compactChars, List.cons_append, List.append_assoc, Token.ofText_openBracket,
      Tree.run_openBracket (by omega), htokens, Tree.run_firstItem htoken, ← htokens,
      run_compactChars_append (by rw [List.length_cons]; omega) hends' hitem]
    exact run_restOfItems_append (by omega) hends [item.tree] hitems
  | .object [], .object _ => by
    rw [show (Value.object []).compactChars ++ rest = '\x7b' :: '\x7d' :: rest from rfl,
      Token.ofText_openBrace, Token.ofText_closeBrace, Tree.run_openBrace (by omega)]
    exact Tree.run_of_complete rfl
  | .object ((key, value) :: members), .object h => by
    obtain ⟨hvalue, hmembers⟩ := List.forall_mem_cons.mp h
    rw [compactChars, List.cons_append, List.append_assoc, List.cons_append, List.append_assoc,
      Token.ofText_openBrace, Tree.run_openBrace (by omega), Token.ofText_quoted_append,
      Token.ofText_colon, Tree.run_member,
      run_compactChars_append (by rw [List.length_cons]; omega)
        (ends_restOfMembers_append members rest) hvalue]
    exact run_restOfMembers_append (by omega) hends [(key, value.tree)] hmembers

theorem run_restOfItems_append {room : Nat} {frames : List Tree.Frame} {rest : List Char}
    (hroom : frames.length + 1 + room ≤ Tree.maxDepth) (hends : Number.Ends rest)
    (read : List Tree) :
    ∀ {items : List Value}, (∀ item ∈ items, item.Fits room) →
      Tree.run (.behindItem read) frames (Token.ofText (restOfItems items ++ rest))
        = Tree.complete frames (.array (read.reverse ++ trees items) .closed) (Token.ofText rest)
  | [], _ => by
    rw [restOfItems, List.singleton_append, Token.ofText_closeBracket,
      Tree.run_of_complete rfl, trees, List.append_nil]
  | item :: items, h => by
    obtain ⟨hitem, hitems⟩ := List.forall_mem_cons.mp h
    rw [restOfItems, List.cons_append, List.append_assoc, Token.ofText_comma, Tree.run_nextItem,
      run_compactChars_append (by rw [List.length_cons]; omega)
        (ends_restOfItems_append items rest) hitem]
    show Tree.run (.behindItem (item.tree :: read)) frames _ = _
    rw [run_restOfItems_append (by omega) hends (item.tree :: read) hitems, trees,
      List.reverse_cons, List.append_assoc, List.singleton_append]

theorem run_restOfMembers_append {room : Nat} {frames : List Tree.Frame} {rest : List Char}
    (hroom : frames.length + 1 + room ≤ Tree.maxDepth) (hends : Number.Ends rest)
    (read : List (String × Tree)) :
    ∀ {members : List (String × Value)}, (∀ member ∈ members, member.2.Fits room) →
      Tree.run (.behindMember read) frames (Token.ofText (restOfMembers members ++ rest))
        = Tree.complete frames (.object (read.reverse ++ memberTrees members) .closed)
          (Token.ofText rest)
  | [], _ => by
    rw [restOfMembers, List.singleton_append, Token.ofText_closeBrace,
      Tree.run_of_complete rfl, memberTrees, List.append_nil]
  | (key, value) :: members, h => by
    obtain ⟨hvalue, hmembers⟩ := List.forall_mem_cons.mp h
    rw [restOfMembers, List.cons_append, List.append_assoc, List.cons_append, List.append_assoc,
      Token.ofText_comma, Tree.run_nextMember, Token.ofText_quoted_append, Token.ofText_colon,
      Tree.run_member, run_compactChars_append (by rw [List.length_cons]; omega)
        (ends_restOfMembers_append members rest) hvalue]
    show Tree.run (.behindMember ((key, value.tree) :: read)) frames _ = _
    rw [run_restOfMembers_append (by omega) hends ((key, value.tree) :: read) hmembers,
      memberTrees, List.reverse_cons, List.append_assoc, List.singleton_append]

end

/-- The text of a value that fits has the tree of the value. -/
theorem isOf_compact {value : Value} (hfits : value.Fits Tree.maxDepth) :
    value.tree.IsOf value.compact := by
  have hends : Number.Ends [] := nofun
  have hrun : Tree.run .value [] (Token.ofText (value.compactChars ++ []))
      = (value.tree, Token.ofText []) := run_compactChars_append (Nat.le_of_eq (Nat.zero_add _))
    hends hfits
  rw [List.append_nil, Token.ofText] at hrun
  rw [Tree.IsOf, compact, String.toList_ofList]
  exact hrun

/-- **The text of a value that fits is read as the tree of the value.** -/
theorem read_compact {α : Type} {shape : Tree → Except Fault α} {value : Value} {a : α}
    (hfits : value.Fits Tree.maxDepth) (hshape : shape value.tree = .ok a) :
    Tree.read shape value.compact = .ok a := by
  rw [(isOf_compact hfits).read_eq, hshape]

end Value

end AccessTransformer.Json
