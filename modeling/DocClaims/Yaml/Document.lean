import DocClaims.Yaml.Event

/-!
# YAML documents

The first document of a text: its events with references bound to the events
that they repeat.
-/

namespace DocClaims
namespace Yaml

inductive Content
  | void
  | scalar (tag : Option String) (style : Style) (text : String)
  | reference (target : Nat)
  | listStart (tag : Option String)
  | listEnd
  | tableStart (tag : Option String)
  | tableEnd
  deriving DecidableEq, Repr

structure PlacedContent where
  content : Content
  place : Place
  deriving DecidableEq, Repr

inductive DocumentFault
  | unreadable (fault : Fault)
  | unknownAnchor (place : Place)
  deriving DecidableEq, Repr

def DocumentFault.message : DocumentFault → String
  | unreadable fault => fault.message
  | unknownAnchor place => "unknown anchor" ++ place.suffix

structure Document where
  contents : List PlacedContent
  /-- The position in `contents` of each target, latest first. -/
  targets : List (Nat × Nat)
  fault : Option DocumentFault
  more : Bool

/-- The contents so far, latest first, and the targets of the anchors. -/
structure Binding where
  contents : List PlacedContent
  count : Nat
  /-- Anchors and the numbers of their targets, latest first. -/
  anchors : List (String × Nat)
  targets : List (Nat × Nat)

namespace Binding

def start : Binding := ⟨[], 0, [], []⟩

def add (b : Binding) (content : Content) (place : Place) : Binding :=
  { b with contents := ⟨content, place⟩ :: b.contents, count := b.count + 1 }

/-- The next content is the target of an anchor. Targets are numbered by the
anchors known so far. -/
def note (b : Binding) : Option String → Binding
  | some a =>
      let known := b.anchors.filter (·.1 != a)
      let number := b.anchors.length
      { b with anchors := (a, number) :: known, targets := (number, b.count) :: b.targets }
  | none => b

def finish (b : Binding) (fault : Option DocumentFault) (more : Bool) : Document :=
  ⟨b.contents.reverse, b.targets, fault, more⟩

end Binding

def bindFrom (fault : Option Fault) (more : Bool) (b : Binding) : List PlacedEvent → Document
  | [] => b.finish (fault.map .unreadable) more
  | ⟨event, place⟩ :: rest =>
      match event with
      | .documentStart => bindFrom fault more b rest
      | .documentEnd => b.finish none more
      | .streamEnd => (b.add .void place).finish none false
      | .scalar properties style text =>
          let b := (b.note properties.anchor).add (.scalar properties.tag style text) place
          bindFrom fault more b rest
      | .listStart properties =>
          let b := (b.note properties.anchor).add (.listStart properties.tag) place
          bindFrom fault more b rest
      | .tableStart properties =>
          let b := (b.note properties.anchor).add (.tableStart properties.tag) place
          bindFrom fault more b rest
      | .listEnd => bindFrom fault more (b.add .listEnd place) rest
      | .tableEnd => bindFrom fault more (b.add .tableEnd place) rest
      | .reference a =>
          match b.anchors.lookup a with
          | some number => bindFrom fault more (b.add (.reference number) place) rest
          | none => b.finish (some (.unknownAnchor place)) more

def Document.ofText (s : String) : Document :=
  let events := EventStream.ofTokens (.ofText s.toList)
  bindFrom events.fault events.hasMore .start events.events

end Yaml
end DocClaims
