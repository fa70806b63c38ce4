import Genaryx.Json.Value

/-!
# JSON Schema keywords

The keywords of JSON Schema draft 2020-12 that the embedded schemas use, each as a test of
a value. A schema is a list of keywords that all have to hold.

## Implementation notes

A keyword says something about the values of its own kind only: every other value passes it.
The `format` keyword is an annotation in this draft, so it has no test here. A pattern is
given as the test of the texts it matches.
-/

namespace Genaryx.Json.Schema

variable {F : Type}

abbrev Keyword (F : Type) := Value F → Bool

/-- A schema with these keywords. -/
def all (keywords : List (Keyword F)) : Keyword F := fun v => keywords.all fun k => k v

/-- A keyword for texts. -/
def text (p : Text → Bool) : Keyword F := fun v => v.asStr.all p

def typeString : Keyword F := fun v => v.asStr.isSome

def typeArray : Keyword F := fun v => v.asArray.isSome

def typeObject : Keyword F
  | .object _ => true
  | _ => false

/-- `"type": "integer"`, where a double may be one too. -/
def typeInteger (integral : F → Bool) : Keyword F
  | .number (.float x) => integral x
  | .number _ => true
  | _ => false

/-- `const` and `enum` of texts. -/
def oneOf (texts : List Text) : Keyword F := fun v => v.asStr.any (· ∈ texts)

def minLength (n : Nat) : Keyword F := text fun s => n ≤ s.length

def maxLength (n : Nat) : Keyword F := text fun s => s.length ≤ n

def pattern (matched : Text → Bool) : Keyword F := text matched

def items (schema : Keyword F) : Keyword F := fun v => v.asArray.all fun vs => vs.all schema

def maxItems (n : Nat) : Keyword F := fun v => v.asArray.all fun vs => vs.length ≤ n

def required (names : List Text) : Keyword F
  | .object members => names.all fun name => (members.lookup name).isSome
  | _ => true

def properties (schemas : List (Text × Keyword F)) : Keyword F
  | .object members => schemas.all fun s => (members.lookup s.1).all s.2
  | _ => true

/-- `"additionalProperties": false`, next to these properties. -/
def noOtherThan (names : List Text) : Keyword F
  | .object members => members.all fun m => m.1 ∈ names
  | _ => true

section

variable (v : Value F)

@[simp] theorem all_nil : all [] v = true := rfl

@[simp] theorem all_cons (k : Keyword F) (ks : List (Keyword F)) :
    all (k :: ks) v = (k v && all ks v) := rfl

end

section Text

variable (s : Text)

@[simp] theorem text_string (p : Text → Bool) : text p (.string s : Value F) = p s := rfl

@[simp] theorem typeString_string : typeString (.string s : Value F) = true := rfl

@[simp] theorem oneOf_string (texts : List Text) :
    oneOf texts (.string s : Value F) = decide (s ∈ texts) := rfl

end Text

@[simp] theorem typeObject_object (members : List (Text × Value F)) :
    typeObject (.object members) = true := rfl

end Genaryx.Json.Schema
