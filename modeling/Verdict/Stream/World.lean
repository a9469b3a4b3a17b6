/-
What live decisions depend on at a moment.

The world holds the published values of attributes, the documents in force and
the configuration in force, each with the number of its publications, and the
time.  Streams read it; only their owner changes it.

* `Published`: a value that is replaced from time to time.
* `Retrieval`: the documents that are to be combined.
* `World`: the published values and the time.
* `Topic`: the names of the published values, and `World.read` their contents.
-/
import Verdict.DecisionPoint.Configuration
import Verdict.Policy.Document
import Verdict.Value.Basic

namespace Verdict

/-- A value that its owner replaces from time to time, and whether it will ever
be replaced again.  The version counts the replacements. -/
structure Published (α : Type) where
  value : α
  version : Nat := 0
  closed : Bool := false

namespace Published

/-- Replaces the value. -/
def publish {α : Type} (p : Published α) (value : α) : Published α :=
  { p with value, version := p.version + 1 }

/-- No value will follow. -/
def close {α : Type} (p : Published α) : Published α := { p with closed := true }

end Published

/-- The candidate documents for a subscription.  Where some target could not be
evaluated, the candidates count as containing one failed document more. -/
structure Retrieval where
  documents : List PolicyDocument := []
  errorsInTarget : Bool := false

/-- Everything that live decisions depend on, at a moment. -/
structure World where
  /-- Milliseconds of virtual time. -/
  time : Nat := 0
  attributes : List (String × Published Value) := []
  retrieval : Published Retrieval := { value := {} }
  configuration : Published PdpConfiguration := { value := {} }

instance : Inhabited World := ⟨{}⟩

/-- The name of a published value. -/
inductive Topic where
  | ofAttribute (name : String)
  | retrieval
  | configuration
  deriving DecidableEq, Repr

/-- The type of the values under a topic. -/
abbrev Topic.Content : Topic → Type
  | ofAttribute _ => Value
  | retrieval => Retrieval
  | configuration => PdpConfiguration

namespace World

/-- What is published under a topic. -/
def read (w : World) : (topic : Topic) → Published topic.Content
  | .ofAttribute name => (w.attributes.lookup name).getD { value := .undefined }
  | .retrieval => w.retrieval
  | .configuration => w.configuration

/-- Publishes the value of an attribute; attributes that are not there stay so. -/
def publishAttribute (w : World) (name : String) (value : Value) : World :=
  { w with attributes := w.attributes.map fun (n, p) =>
      if n = name then (n, p.publish value) else (n, p) }

end World
end Verdict
