import ForgeRelay.Keyed
import ForgeRelay.Yaml.Token

/-!
# Nodes of a YAML document

`Stream.read?` composes the tokens of a stream into the nodes of its only document.  An alias keeps
the slot of its anchor, to be looked up when the whole document is there.  The slot of an anchor is
the number of names that were anchored before it; of two nodes with one slot the later one counts.
-/

namespace ForgeRelay.Yaml

inductive Node where
  | scalar (tag : Option Bytes) (plain : Bool) (text : String)
  | alias (slot : Nat)
  | list (tag : Option Bytes) (items : List Node)
  | map (tag : Option Bytes) (entries : List (Node × Node))
  deriving Repr, Inhabited

/-- a node that nothing is written for -/
def Node.empty : Node := .scalar none true ""

mutual
/-- how many marks a node is made of; a collection has one at either end -/
def Node.size : Node → Nat
  | .scalar .. | .alias _ => 1
  | .list _ items => 2 + sizes items
  | .map _ entries => 2 + entrySizes entries

def sizes : List Node → Nat
  | [] => 0
  | n :: rest => n.size + sizes rest

def entrySizes : List (Node × Node) → Nat
  | [] => 0
  | (key, value) :: rest => key.size + value.size + entrySizes rest
end

/-- an anchored node; `order` counts anchors from the start of the document -/
structure Anchored where
  slot : Nat
  order : Nat
  node : Node

/-- a document; there is no root if nothing stands in the stream -/
structure Stream where
  root : Option Node
  anchored : List Anchored

def Stream.node? (s : Stream) (slot : Nat) : Option Node :=
  let found := s.anchored.filter (·.slot = slot)
  (found.foldl (fun best a =>
    match best with
    | none => some a
    | some b => if b.order < a.order then some a else some b) none).map (·.node)

/-! ## composing -/

structure Composer where
  tokens : List Token
  shorthands : List (String × Bytes)
  names : List (String × Nat)
  begun : Nat
  anchored : List Anchored

namespace Composer

def next (c : Composer) : Composer := { c with tokens := c.tokens.drop 1 }

/-- the properties before a node: the name of its anchor and its tag -/
structure Properties where
  anchor : Option String
  tag : Option Bytes

def tag? (c : Composer) (handle : String) (suffix : Bytes) : Option Bytes :=
  if handle.isEmpty then some suffix
  else (Keyed.lookup handle c.shorthands).map (· ++ suffix)

/-- an anchor and a tag, in either order -/
def properties? (c : Composer) : Option (Properties × Composer) :=
  match c.tokens with
  | .anchor name :: .tag handle suffix :: _ | .tag handle suffix :: .anchor name :: _ => do
    return (⟨some name, some (← c.tag? handle suffix)⟩, c.next.next)
  | .anchor name :: _ => some (⟨some name, none⟩, c.next)
  | .tag handle suffix :: _ => do return (⟨none, some (← c.tag? handle suffix)⟩, c.next)
  | _ => some (⟨none, none⟩, c)

/-- gives an anchor its slot before its node is read, so that the node may refer to itself -/
def begin (c : Composer) (p : Properties) : Composer :=
  match p.anchor with
  | none => c
  | some name => { c with names := Keyed.put name c.names.length c.names, begun := c.begun + 1 }

/-- keeps an anchored node under the slot and order that it had in `before` -/
def keep (before : Composer) (p : Properties) (node : Node) (after : Composer) : Node × Composer :=
  match p.anchor with
  | none => (node, after)
  | some _ =>
    (node, { after with anchored := ⟨before.names.length, before.begun, node⟩ :: after.anchored })

/-- whether the next token leaves the value or key before it empty -/
def endsEntry : List Token → Bool
  | .key :: _ | .value :: _ | .blockEnd :: _ | [] => true
  | _ => false

mutual
/-- a node; block collections may stand only where `block`, and entries of a sequence without
indentation of its own where `indentless` -/
def node? (block indentless : Bool) : Nat → Composer → Option (Node × Composer)
  | 0, _ => none
  | fuel + 1, c =>
    match c.tokens with
    | .alias name :: _ => do return (.alias (← Keyed.lookup name c.names), c.next)
    | _ => do
      let (p, before) ← c.properties?
      let c := before.begin p
      let finish (node : Node) (after : Composer) : Option (Node × Composer) :=
        some (keep before p node after)
      match c.tokens with
      | .blockEntry :: _ =>
        if indentless then
          let (items, c) ← entries? false fuel c
          finish (.list p.tag items) c
        else if p.anchor.isSome || p.tag.isSome then finish (.scalar p.tag true "") c
        else none
      | .scalar plain text :: _ => finish (.scalar p.tag plain text) c.next
      | .flowSequence :: _ =>
        let (items, c) ← flowItems? true fuel c.next
        finish (.list p.tag items) c
      | .flowMapping :: _ =>
        let (entries, c) ← flowEntries? true fuel c.next
        finish (.map p.tag entries) c
      | .blockSequence :: _ =>
        if block then
          let (items, c) ← entries? true fuel c.next
          finish (.list p.tag items) c
        else if p.anchor.isSome || p.tag.isSome then finish (.scalar p.tag true "") c
        else none
      | .blockMapping :: _ =>
        if block then
          let (entries, c) ← blockFields? fuel c.next
          finish (.map p.tag entries) c
        else if p.anchor.isSome || p.tag.isSome then finish (.scalar p.tag true "") c
        else none
      | _ =>
        if p.anchor.isSome || p.tag.isSome then finish (.scalar p.tag true "") c else none

/-- entries of a block sequence; one with indentation of its own ends in a `blockEnd` -/
def entries? (indented : Bool) : Nat → Composer → Option (List Node × Composer)
  | 0, _ => none
  | fuel + 1, c =>
    match c.tokens with
    | .blockEntry :: rest => do
      let empty := match rest with
        | .blockEntry :: _ | .blockEnd :: _ => true
        | .key :: _ | .value :: _ => !indented
        | _ => false
      let (item, c) ← if empty then some (.empty, c.next) else node? true false fuel c.next
      let (items, c) ← entries? indented fuel c
      return (item :: items, c)
    | .blockEnd :: _ => some ([], if indented then c.next else c)
    | _ => if indented then none else some ([], c)

/-- the fields of a block mapping, up to and over its `blockEnd` -/
def blockFields? : Nat → Composer → Option (List (Node × Node) × Composer)
  | 0, _ => none
  | fuel + 1, c =>
    match c.tokens with
    | .key :: rest => do
      let (key, c) ← if endsEntry rest then some (.empty, c.next) else node? true true fuel c.next
      let (value, c) ← blockValue? fuel c
      let (fields, c) ← blockFields? fuel c
      return ((key, value) :: fields, c)
    | .blockEnd :: _ => some ([], c.next)
    | _ => none

def blockValue? : Nat → Composer → Option (Node × Composer)
  | 0, _ => none
  | fuel + 1, c =>
    match c.tokens with
    | .value :: rest =>
      if endsEntry rest then some (.empty, c.next) else node? true true fuel c.next
    | _ => some (.empty, c)

/-- items of a flow sequence, up to and over its end; a single pair may stand as an item -/
def flowItems? (first : Bool) : Nat → Composer → Option (List Node × Composer)
  | 0, _ => none
  | fuel + 1, c =>
    match c.tokens with
    | .flowSequenceEnd :: _ => some ([], c.next)
    | _ => do
      let c ← if first then some c else
        match c.tokens with
        | .flowEntry :: _ => some c.next
        | _ => none
      match c.tokens with
      | .flowSequenceEnd :: _ => return ([], c.next)
      | .key :: rest =>
        let (key, c) ← match rest with
          | .value :: _ | .flowEntry :: _ | .flowSequenceEnd :: _ => some (.empty, c.next.next)
          | _ => node? false false fuel c.next
        let (value, c) ← match c.tokens with
          | .value :: .flowEntry :: _ | .value :: .flowSequenceEnd :: _ => some (.empty, c.next)
          | .value :: _ => node? false false fuel c.next
          | _ => some (.empty, c)
        let (items, c) ← flowItems? false fuel c
        return (.map none [(key, value)] :: items, c)
      | _ =>
        let (item, c) ← node? false false fuel c
        let (items, c) ← flowItems? false fuel c
        return (item :: items, c)

/-- entries of a flow mapping, up to and over its end -/
def flowEntries? (first : Bool) : Nat → Composer → Option (List (Node × Node) × Composer)
  | 0, _ => none
  | fuel + 1, c =>
    match c.tokens with
    | .flowMappingEnd :: _ => some ([], c.next)
    | _ => do
      let c ← if first then some c else
        match c.tokens with
        | .flowEntry :: _ => some c.next
        | _ => none
      match c.tokens with
      | .flowMappingEnd :: _ => return ([], c.next)
      | .key :: rest =>
        let (key, c) ← match rest with
          | .value :: _ | .flowEntry :: _ | .flowMappingEnd :: _ => some (.empty, c.next)
          | _ => node? false false fuel c.next
        let (value, c) ← match c.tokens with
          | .value :: .flowEntry :: _ | .value :: .flowMappingEnd :: _ => some (.empty, c.next)
          | .value :: _ => node? false false fuel c.next
          | _ => some (.empty, c)
        let (entries, c) ← flowEntries? false fuel c
        return ((key, value) :: entries, c)
      | _ =>
        let (key, c) ← node? false false fuel c
        let (entries, c) ← flowEntries? false fuel c
        return ((key, .empty) :: entries, c)
end

/-! ## documents -/

/-- shorthands that hold unless a directive sets them -/
def standardShorthands : List (String × Bytes) :=
  [("!", Bytes.ascii ['!']), ("!!", Bytes.ascii "tag:yaml.org,2002:".toList)]

/-- the directives before a document: at most one version, which must be 1.1 or 1.2, and at most one
shorthand for a handle -/
def directives? : Bool → List (String × Bytes) → List Token →
    Option (List (String × Bytes) × List Token)
  | seen, shorthands, .version major minor :: rest =>
    if seen || major ≠ 1 || (minor ≠ 1 && minor ≠ 2) then none else directives? true shorthands rest
  | seen, shorthands, .tagShorthand handle start :: rest =>
    if (Keyed.lookup handle shorthands).isSome then none
    else directives? seen (shorthands ++ [(handle, start)]) rest
  | _, shorthands, rest => some (shorthands, rest)

def startsImplicitly : List Token → Bool
  | .version .. :: _ | .tagShorthand .. :: _ | .documentStart :: _ => false
  | _ => true

/-- whether a document that is marked has no content -/
def isBare : List Token → Bool
  | .version .. :: _ | .tagShorthand .. :: _ | .documentStart :: _ | .documentEnd :: _ | [] => true
  | _ => false

/-- the root of the only document; directives need a mark of its start, and nothing but marks of
its end may follow it -/
def document? (tokens : List Token) : Option Stream := do
  let fuel := 4 * tokens.length + 4
  let compose (shorthands : List (String × Bytes)) (tokens : List Token) : Composer :=
    ⟨tokens, shorthands ++ standardShorthands, [], 0, []⟩
  let (root, c) ←
    if startsImplicitly tokens then node? true false fuel (compose [] tokens)
    else
      match directives? false [] tokens with
      | some (shorthands, .documentStart :: rest) =>
        if isBare rest then some (Node.empty, compose shorthands rest)
        else node? true false fuel (compose shorthands rest)
      | _ => none
  if (c.tokens.dropWhile (· = .documentEnd)).isEmpty then return ⟨some root, c.anchored⟩ else none

end Composer

/-- the document of a stream -/
def Stream.read? (s : String) : Option Stream := do
  let tokens ← Token.scan? s.toList
  if tokens.isEmpty then return ⟨none, []⟩ else Composer.document? tokens

end ForgeRelay.Yaml
