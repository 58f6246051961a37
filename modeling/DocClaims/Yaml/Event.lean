import DocClaims.Yaml.Token

/-!
# YAML events

The structure of a document as the sequence of its scalars and of the starts and
ends of its lists and tables. What is still to come is kept as a stack of goals;
each goal takes tokens and gives at most one event.
-/

namespace DocClaims
namespace Yaml

structure Properties where
  anchor : Option String
  tag : Option String
  deriving DecidableEq, Repr

inductive Event
  | documentStart
  | documentEnd
  | streamEnd
  | scalar (properties : Properties) (style : Style) (text : String)
  | reference (anchor : String)
  | listStart (properties : Properties)
  | listEnd
  | tableStart (properties : Properties)
  | tableEnd
  deriving DecidableEq, Repr

structure PlacedEvent where
  event : Event
  place : Place
  deriving DecidableEq, Repr

/-- What comes next. The place is where the list or table around it begins. -/
inductive Goal
  /-- A document, which needs a mark if it is not the first. -/
  | document (first : Bool)
  | content
  | documentEnd
  /-- A node; block forms may be excluded, and dashes at the column of a key
  allowed. -/
  | node (block dashes : Bool)
  | listEntry (start : Place)
  | dashEntry
  | tableKey (start : Place)
  | tableValue (start : Place)
  | flowEntry (first : Bool) (start : Place)
  | pairKey
  | pairValue
  | pairEnd
  | flowKey (first : Bool) (start : Place)
  | flowValue (start : Place)
  | flowNoValue (start : Place)
  deriving DecidableEq, Repr

/-- The outcome of one goal: the event it gives, the goals put in its place and
the tokens that are left. -/
structure Advance where
  event : Option PlacedEvent
  goals : List Goal
  rest : List PlacedToken

namespace Advance

def give (event : Event) (place : Place) (goals : List Goal) (rest : List PlacedToken) : Advance :=
  ⟨some ⟨event, place⟩, goals, rest⟩

def go (goals : List Goal) (rest : List PlacedToken) : Advance := ⟨none, goals, rest⟩

def empty (place : Place) (goals : List Goal) (rest : List PlacedToken) : Advance :=
  give (.scalar ⟨none, none⟩ .plain "") place goals rest

end Advance

/-- Goals fail with a fault of the tokens, or because the tokens give out. -/
abbrev GoalResult := Except (Option Fault) Advance

def faultIn (problem : Problem) (place : Place) (activity : Activity) (start : Place) :
    GoalResult :=
  .error (some (.interrupted problem place activity start))

/-! ### Directives and documents -/

abbrev TagTable := List (String × String)

def defaultTags : TagTable := [("!", "!"), ("!!", "tag:yaml.org,2002:")]

structure Directives where
  versioned : Bool
  tags : TagTable

def directives (d : Directives) : List PlacedToken →
    Except (Option Fault) (Directives × List PlacedToken)
  | ⟨.version major minor, p⟩ :: rest =>
      if d.versioned then .error (some (.misplaced .duplicateVersion p))
      else if major == 1 && (minor == 1 || minor == 2) then
        directives { d with versioned := true } rest
      else .error (some (.misplaced .incompatibleVersion p))
  | ⟨.tagDirective handle expansion, p⟩ :: rest =>
      if (d.tags.lookup handle).isSome then .error (some (.misplaced .duplicateTagHandle p))
      else directives { d with tags := d.tags ++ [(handle, expansion)] } rest
  | [] => .error none
  | rest => .ok (d, rest)

/-- A document begins where the tokens do, or the text is at its end. -/
def beginDocument (first : Bool) (tokens : List PlacedToken) :
    Except (Option Fault) (Advance × TagTable) :=
  let tokens := if first then tokens else tokens.dropWhile fun t => t.token == .documentEnd
  match tokens with
  | [] => .error none
  | t :: _ => do
      if t.token == .streamEnd then
        return (.give .streamEnd t.place [] [], [])
      let (d, rest) ← directives ⟨false, []⟩ tokens
      let tags := d.tags ++ defaultTags
      match rest with
      | ⟨.documentStart, _⟩ :: rest =>
          return (.give .documentStart t.place [.content, .documentEnd] rest, tags)
      | u :: _ =>
          if first && t == u then
            return (.give .documentStart t.place [.node true false, .documentEnd] rest, tags)
          else throw (some (.misplaced .noDocumentStart u.place))
      | [] => throw none

/-! ### Nodes -/

structure WrittenTag where
  handle : String
  suffix : String
  place : Place

/-- What stands before the content of a node. -/
structure NodeHead where
  anchor : Option String
  tag : Option WrittenTag
  start : Place

def nodeHead : List PlacedToken → Except (Option Fault) (NodeHead × List PlacedToken)
  | ⟨.anchor a, p⟩ :: ⟨.tag h s, q⟩ :: rest => .ok (⟨some a, some ⟨h, s, q⟩, p⟩, rest)
  | [⟨.anchor _, _⟩] => .error none
  | ⟨.anchor a, p⟩ :: rest => .ok (⟨some a, none, p⟩, rest)
  | ⟨.tag h s, p⟩ :: ⟨.anchor a, _⟩ :: rest => .ok (⟨some a, some ⟨h, s, p⟩, p⟩, rest)
  | [⟨.tag _ _, _⟩] => .error none
  | ⟨.tag h s, p⟩ :: rest => .ok (⟨none, some ⟨h, s, p⟩, p⟩, rest)
  | ⟨t, p⟩ :: rest => .ok (⟨none, none, p⟩, ⟨t, p⟩ :: rest)
  | [] => .error none

def resolveTag (tags : TagTable) (start : Place) : Option WrittenTag →
    Except (Option Fault) (Option String)
  | none => .ok none
  | some t =>
      if t.handle.isEmpty then .ok (some t.suffix)
      else
        match tags.lookup t.handle with
        | some expansion => .ok (some (expansion ++ t.suffix))
        | none => .error (some (.interrupted .undefinedTagHandle t.place .node start))

/-- A tag that only says that the scalar is one is no tag. -/
def scalarTag (tag : Option String) : Option String := tag.filter (· != "!")

def node (tags : TagTable) (block dashes : Bool) : List PlacedToken → GoalResult
  | ⟨.reference a, p⟩ :: rest => .ok (.give (.reference a) p [] rest)
  | tokens => do
      let (head, rest) ← nodeHead tokens
      let tag ← resolveTag tags head.start head.tag
      let properties : Properties := ⟨head.anchor, tag⟩
      match rest with
      | [] => throw none
      | ⟨token, p⟩ :: after =>
          match token with
          | .scalar style text =>
              return .give (.scalar ⟨head.anchor, scalarTag tag⟩ style text) head.start [] after
          | .flowListStart =>
              return .give (.listStart properties) head.start [.flowEntry true p] after
          | .flowTableStart =>
              return .give (.tableStart properties) head.start [.flowKey true p] after
          | other =>
              if dashes && other == .dash then
                return .give (.listStart properties) head.start [.dashEntry] rest
              else if block && other == .blockList then
                return .give (.listStart properties) head.start [.listEntry p] after
              else if block && other == .blockTable then
                return .give (.tableStart properties) head.start [.tableKey p] after
              else if head.anchor.isSome || head.tag.isSome then
                return .give (.scalar properties .plain "") head.start [] rest
              else faultIn .noNode p (if block then .blockNode else .flowNode) head.start

/-! ### Lists and tables -/

/-- The node behind an indicator at `place`, unless one of the tokens `stops`
shows that there is none. -/
def nodeBehind (place : Place) (stops : List Token) (wanted : Goal) (goals : List Goal) :
    List PlacedToken → GoalResult
  | [] => .error none
  | t :: rest =>
      if stops.contains t.token then .ok (.empty place.next goals (t :: rest))
      else .ok (.go (wanted :: goals) (t :: rest))

/-- A node, or an empty scalar before one of the tokens `stops`. -/
def nodeBefore (stops : List Token) (wanted : Goal) (goals : List Goal) :
    List PlacedToken → GoalResult
  | [] => .error none
  | t :: rest =>
      if stops.contains t.token then .ok (.empty t.place goals (t :: rest))
      else .ok (.go (wanted :: goals) (t :: rest))

def flowEntryIn (start : Place) : List PlacedToken → GoalResult
  | [] => .error none
  | ⟨token, p⟩ :: rest =>
      match token with
      | .flowListEnd => .ok (.give .listEnd p [] rest)
      | .key => .ok (.give (.tableStart ⟨none, none⟩) p [.pairKey, .flowEntry false start] rest)
      | _ => .ok (.go [.node false false, .flowEntry false start] (⟨token, p⟩ :: rest))

def flowKeyIn (start : Place) : List PlacedToken → GoalResult
  | [] => .error none
  | ⟨token, p⟩ :: rest =>
      match token with
      | .flowTableEnd => .ok (.give .tableEnd p [] rest)
      | .key =>
          nodeBefore [.value, .comma, .flowTableEnd] (.node false false) [.flowValue start] rest
      | _ => .ok (.go [.node false false, .flowNoValue start] (⟨token, p⟩ :: rest))

/-- Takes the tokens of one goal, given that there is a token at all. -/
def advance (tags : TagTable) (goal : Goal) (t : PlacedToken) (rest : List PlacedToken) :
    GoalResult :=
  match goal with
  | .document _ => .ok (.go [] (t :: rest))
  | .content =>
      match t.token with
      | .version _ _ | .tagDirective _ _ | .documentStart | .documentEnd | .streamEnd =>
          .ok (.empty t.place [] (t :: rest))
      | _ => .ok (.go [.node true false] (t :: rest))
  | .documentEnd => .ok (.give .documentEnd t.place [] (t :: rest))
  | .node block dashes => node tags block dashes (t :: rest)
  | .listEntry start =>
      match t.token with
      | .dash =>
          nodeBehind t.place [.dash, .blockEnd] (.node true false) [.listEntry start] rest
      | .blockEnd => .ok (.give .listEnd t.place [] rest)
      | _ => faultIn .noDash t.place .blockList start
  | .dashEntry =>
      match t.token with
      | .dash =>
          nodeBehind t.place [.dash, .key, .value, .blockEnd] (.node true false) [.dashEntry] rest
      | _ => .ok (.give .listEnd t.place [] (t :: rest))
  | .tableKey start =>
      match t.token with
      | .key =>
          nodeBehind t.place [.key, .value, .blockEnd] (.node true true) [.tableValue start] rest
      | .blockEnd => .ok (.give .tableEnd t.place [] rest)
      | _ => faultIn .noKey t.place .blockTable start
  | .tableValue start =>
      match t.token with
      | .value =>
          nodeBehind t.place [.key, .value, .blockEnd] (.node true true) [.tableKey start] rest
      | _ => .ok (.empty t.place [.tableKey start] (t :: rest))
  | .flowEntry first start =>
      if first || t.token == .flowListEnd then flowEntryIn start (t :: rest)
      else if t.token == .comma then flowEntryIn start rest
      else faultIn .noListEnd t.place .flowList start
  | .pairKey =>
      match t.token with
      | .value | .comma | .flowListEnd => .ok (.empty t.place.next [.pairValue] rest)
      | _ => .ok (.go [.node false false, .pairValue] (t :: rest))
  | .pairValue =>
      match t.token with
      | .value => nodeBefore [.comma, .flowListEnd] (.node false false) [.pairEnd] rest
      | _ => .ok (.empty t.place [.pairEnd] (t :: rest))
  | .pairEnd => .ok (.give .tableEnd t.place [] (t :: rest))
  | .flowKey first start =>
      if first || t.token == .flowTableEnd then flowKeyIn start (t :: rest)
      else if t.token == .comma then flowKeyIn start rest
      else faultIn .noTableEnd t.place .flowTable start
  | .flowValue start =>
      match t.token with
      | .value => nodeBefore [.comma, .flowTableEnd] (.node false false) [.flowKey false start] rest
      | _ => .ok (.empty t.place [.flowKey false start] (t :: rest))
  | .flowNoValue start => .ok (.empty t.place [.flowKey false start] (t :: rest))

/-- The events of one document, up to the fault that ends them, if one does. -/
structure EventStream where
  events : List PlacedEvent
  fault : Option Fault
  rest : List PlacedToken

/-- Meets the goals, after the events in `done` (latest first); `fuel` bounds the
number of steps. -/
def meet (tags : TagTable) (fault : Option Fault) (done : List PlacedEvent) :
    Nat → List Goal → List PlacedToken → EventStream
  | 0, _, rest => ⟨done.reverse, fault, rest⟩
  | _, [], rest => ⟨done.reverse, none, rest⟩
  | _, _, [] => ⟨done.reverse, fault, []⟩
  | fuel + 1, goal :: goals, t :: rest =>
      match advance tags goal t rest with
      | .error cause => ⟨done.reverse, cause.or fault, []⟩
      | .ok a =>
          let done := match a.event with
            | some e => e :: done
            | none => done
          meet tags fault done fuel (a.goals ++ goals) a.rest

/-- Every goal takes a token or gives an event in place of a missing node. -/
def stepBound (tokens : List PlacedToken) : Nat := 8 * tokens.length + 8

def EventStream.ofTokens (s : TokenStream) : EventStream :=
  match beginDocument true s.tokens with
  | .error cause => ⟨[], cause.or s.fault, []⟩
  | .ok (a, tags) =>
      meet tags s.fault a.event.toList (stepBound s.tokens) a.goals a.rest

/-- Another document begins behind the first, or a fault lies there. -/
def EventStream.hasMore (s : EventStream) : Bool :=
  match beginDocument false s.rest with
  | .ok (⟨some ⟨.streamEnd, _⟩, _, _⟩, _) => false
  | _ => true

end Yaml
end DocClaims
