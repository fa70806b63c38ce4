import Genaryx.Copilot.Amounts

/-!
# Ids in a text

What a statement refers to: an agent URI, `run:x` and the like, a token after a kind word, a token
in backticks, a bare token shaped like an id.
-/

namespace Genaryx.Copilot

variable (L : Letters)

/-- What a reference says it refers to. -/
inductive Kind
  | run
  | incident
  | policy
  | agent
  | approval
  | memory
  | other
  deriving DecidableEq

def Kind.label : Kind → Text
  | .run => "run".toList
  | .incident => "incident".toList
  | .policy => "policy".toList
  | .agent => "agent".toList
  | .approval => "approval".toList
  | .memory => "memory".toList
  | .other => "id".toList

/-- Which structured field grounds what. -/
def kindOf (tool key : Text) : Kind :=
  if key = "run_id".toList then .run
  else if key ∈ ["agent_id", "identity", "on_behalf_of"].map String.toList then .agent
  else if key = "approval_id".toList then .approval
  else if key = "id".toList ∧ tool = "incidents".toList then .incident
  else if key ∈ ["id", "name", "target"].map String.toList ∧ tool = "policies".toList then .policy
  else if key = "id".toList ∧ tool = "identities".toList then .agent
  else if key = "id".toList ∧ tool ∈ ["memory_recall", "memory_why"].map String.toList then .memory
  else if key = "id".toList ∧ tool = "quality_latest".toList then .run
  else if key = "incident_id".toList then .incident
  else if key = "claimed_agent".toList then .agent
  else .other

/-- Phrases that say a thing was looked for and not found. -/
def absencePhrases : List Text :=
  ["not returned", "no tool", "did not return", "didn't return", "not found", "could not find",
    "couldn't find", "cannot find", "can't find", "not listed", "isn't listed", "does not exist",
    "doesn't exist", "no such", "no record", "cannot say", "can't say", "cannot tell",
    "can't tell"].map String.toList

/-- A typographic apostrophe as a plain one. -/
def plainApostrophe (c : Char) : Char := if c = '\u2019' then '\x27' else c

def saysAbsent (statement : Text) : Bool :=
  absencePhrases.any fun p => Text.contains ((L.toLowercase statement).map plainApostrophe) p

/-- Lowercased words: runs of letters, digits, apostrophes and underscores. -/
def words (clause : Text) : List Text :=
  Text.wordsOn (fun c => !(L.isAlphanumeric c || c = '\x27' || c = '_'))
    ((L.toLowercase clause).map plainApostrophe)

/-- What plane text is called in an answer. -/
def textNouns : List Text :=
  ["summary", "message", "event", "log", "memory", "text", "note", "explanation",
    "line"].map String.toList

/-- What it is said to do. -/
def textVerbs : List Text :=
  ["says", "said", "claims", "claimed", "names", "named", "mentions", "mentioned", "reads", "asks",
    "asked", "tells", "told", "states", "stated", "quotes", "quoted", "contains", "demands",
    "instructs", "suggests"].map String.toList

/-- Whether a statement attributes what it says to a text. -/
def reported (statement : Text) : Bool :=
  let w := words L statement
  w.any (fun x => x ∈ textNouns) && w.any fun x => x ∈ textVerbs

def negators : List Text :=
  ["no", "not", "without", "lack", "lacks", "lacking", "none"].map String.toList

def isNegator (w : Text) : Bool := w ∈ negators || "n't".toList.isSuffixOf w

/-- Words that turn a named action down. -/
def refusalWords : List Text :=
  ["never", "cannot", "refuse", "refused", "ignored", "avoid", "withheld"].map String.toList

def refused (statement : Text) : Bool :=
  (words L statement).any fun w => isNegator w || w ∈ refusalWords

/-- An id-shaped token in a statement. -/
structure Reference where
  kind : Kind
  token : Text
  deriving DecidableEq

def keyword (word : Text) : Option Kind :=
  let lower := L.toLowercase word
  if lower ∈ ["run", "runs"].map String.toList then some .run
  else if lower ∈ ["incident", "incidents"].map String.toList then some .incident
  else if lower ∈ ["policy", "policies"].map String.toList then some .policy
  else if lower ∈ ["agent", "agents", "identity", "identities"].map String.toList then some .agent
  else if lower ∈ ["approval", "approvals"].map String.toList then some .approval
  else if lower ∈ ["memory", "memories"].map String.toList then some .memory
  else none

/-- Words that may stand between a kind word and its id. -/
def between : List Text := ["id", "ids", "named", "called"].map String.toList

/-- Hyphenated words that follow a kind word in ordinary prose. -/
def proseHyphens : List Text :=
  ["over-budget", "under-budget", "near-cap", "over-cap", "read-only", "long-running",
    "high-spend", "low-spend", "per-run", "per-agent", "cross-plane", "root-cause", "fan-out",
    "follow-up"].map String.toList

/-- Beginnings of tokens that are shaped like an id and are not one. -/
def notAnId : List Text :=
  ["top-", "tier-", "level-", "phase-", "step-", "pre-", "post-", "mid-", "sha-", "utf-", "iso-",
    "soc-", "rfc-", "cve-", "aes-", "rsa-", "ml-", "x-"].map String.toList

/-- What prose puts around a word. -/
def edge (c : Char) : Bool :=
  c ∈ ['{', '}', '<', '>', ';', ':', '.', '!', '?', '"', '\x27', '\x60', '*', '~', '\u2018', '\u2019',
    '\u201c', '\u201d']

/-- `str::trim_matches`. -/
def trimMatches (p : Char → Bool) (t : Text) : Text :=
  ((t.dropWhile p).reverse.dropWhile p).reverse

/-- A word without what prose puts around it. -/
def clean (word : Text) : Text :=
  let word := trimMatches edge word
  let word := ((Text.stripSuffix "'s".toList word).or
    (Text.stripSuffix "\u2019s".toList word)).getD word
  let word := ((Text.rsplitOnceAt "=".toList word).map Prod.snd).getD word
  trimMatches edge word

def idLike (word : Text) : Bool :=
  L.toLowercase word ∉ proseHyphens &&
    word.any fun c => c.isDigit || c = '-' || c = '_' || c = ':' || c = '/'

/-- A token shaped like an id with nothing around it to say so. -/
def bareId (word : Text) : Bool :=
  let lower := L.toLowercase word
  -- All capitals is a standard, not a run.
  let shouting := (word.filter L.isAlphabetic).all L.isUppercase
  word.head?.any L.isAlphabetic && word.any (fun c => c = '-' || c = '_') &&
    (word.any Char.isDigit || word.any (· = ':')) && !shouting &&
    !notAnId.any fun p => Text.startsWith lower p

def reference (word : Text) (inCode : Bool) (before : Option Kind) : Option Reference :=
  if !word.any L.isAlphabetic || word.head? = some '$' then none
  else if Text.startsWith (L.toLowercase word) "agent://".toList then some ⟨.agent, word⟩
  else if Text.contains word "://".toList then none
  else
    let prefixed := (Text.splitOnce ':' word).bind fun (head, rest) =>
      if rest.isEmpty then none else (keyword L head).map fun kind => Reference.mk kind rest
    match prefixed with
    | some found => some found
    | none =>
        if (before.isSome || inCode) && idLike L word then some ⟨before.getD .other, word⟩
        else if bareId L word then some ⟨.other, word⟩
        else none

/-- Every second item of a list, from the first on. -/
def everyOther {α : Type*} : List α → List α
  | a :: _ :: rest => a :: everyOther rest
  | [a] => [a]
  | [] => []

/-- What stands between backticks. -/
def codeSpans (text : Text) : List Text :=
  (everyOther ((text.splitOnP (· = '\x60')).drop 1)).map fun s => clean (Text.trim s)

/-- A character that ends a word of a statement. -/
def separates (c : Char) : Bool :=
  Text.isWhitespace c || c ∈ [',', '|', '(', ')', '[', ']', '\u2192', '\u2190']

/-- The words of a statement, cleaned. -/
def cleanWords (text : Text) : List Text :=
  ((text.splitOnP separates).map clean).filter (!·.isEmpty)

/-- The kind that the words before a word give it, the nearest first. -/
def kindBefore : List Text → Option Kind
  | [] => none
  | p :: more =>
      (keyword L p).or
        (if L.toLowercase p ∈ between then more.head?.bind (keyword L) else none)

/-- The references among words that stand after others, which are given from the nearest. -/
def referencesFrom (code earlier : List Text) (out : List Reference) :
    List Text → List Reference
  | [] => out
  | word :: rest =>
      let out :=
        match reference L word (word ∈ code) (kindBefore L earlier) with
        | some found => if out.any (·.token = found.token) then out else out ++ [found]
        | none => out
      referencesFrom code (word :: earlier) out rest

/-- The references of a text, each token once. -/
def references (text : Text) : List Reference :=
  referencesFrom L (codeSpans text) [] [] (cleanWords text)

section Ends

open Text (IgnoresEnds)

variable {L}

theorem plainApostrophe_blank {c : Char} (hc : Text.isWhitespace c = true) :
    plainApostrophe c = c := by
  refine if_neg ?_
  rintro rfl
  exact absurd hc (by decide)

/-- White space makes up no word. -/
theorem not_word_blank {c : Char} (hc : Text.isWhitespace c = true) :
    (!(L.isAlphanumeric c || c = '\x27' || c = '_')) = true := by
  obtain ⟨halpha, hnumeric, _⟩ := L.blank c hc
  have hquote : c ≠ '\x27' := by
    rintro rfl
    exact absurd hc (by decide)
  have hunder : c ≠ '_' := by
    rintro rfl
    exact absurd hc (by decide)
  rw [Letters.isAlphanumeric, halpha, hnumeric, decide_eq_false hquote, decide_eq_false hunder]
  rfl

theorem ignoresEnds_words : IgnoresEnds (words L) :=
  have hwords := Text.ignoresEnds_wordsOn
    (p := fun c => !(L.isAlphanumeric c || c = '\x27' || c = '_')) fun _ => not_word_blank
  (hwords.charMap fun _ => plainApostrophe_blank).lowercase L

theorem ignoresEnds_reported : IgnoresEnds (reported L) :=
  ignoresEnds_words.comp fun w =>
    w.any (fun x => x ∈ textNouns) && w.any fun x => x ∈ textVerbs

theorem ignoresEnds_refused : IgnoresEnds (refused L) :=
  ignoresEnds_words.comp fun w => w.any fun w => isNegator w || w ∈ refusalWords

theorem ignoresEnds_saysAbsent : IgnoresEnds (saysAbsent L) := by
  have hphrases : ∀ p ∈ absencePhrases, p ≠ [] ∧
      p.head?.any Text.isWhitespace = false ∧ p.getLast?.any Text.isWhitespace = false := by
    decide
  refine IgnoresEnds.any
    (f := fun p statement => Text.contains ((L.toLowercase statement).map plainApostrophe) p) ?_
  intro p hp
  obtain ⟨hne, hhead, hlast⟩ := hphrases p hp
  rw [Option.any_eq_false] at hhead hlast
  have hcontains := Text.ignoresEnds_contains hne hhead hlast
  exact (hcontains.charMap fun _ => plainApostrophe_blank).lowercase L

theorem separates_blank {c : Char} (hc : Text.isWhitespace c = true) : separates c = true := by
  rw [separates, hc]
  rfl

/-- White space at the ends of a statement is no word of it. -/
theorem ignoresEnds_cleanWords : IgnoresEnds cleanWords := by
  constructor
  · intro c t hc
    rw [cleanWords, List.splitOnP_cons_eq_if_modifyHead, if_pos (separates_blank hc)]
    rfl
  · intro c t hc
    rw [cleanWords, List.splitOnP_append_cons t [] (separates_blank hc), List.map_append,
      List.filter_append]
    exact List.append_nil _

theorem everyOther_map {α β : Type*} (g : α → β) (l : List α) :
    (everyOther l).map g = everyOther (l.map g) := by
  induction l using everyOther.induct with
  | case1 a b rest ih => exact congrArg (g a :: ·) ih
  | case2 a => rfl
  | case3 => rfl

/-- Nor does it change what stands between backticks. -/
theorem ignoresEnds_codeSpans : IgnoresEnds codeSpans := by
  have htick : ∀ c, Text.isWhitespace c = true → decide (c = '\x60') = false := by
    intro c hc
    refine decide_eq_false ?_
    rintro rfl
    exact absurd hc (by decide)
  have hparts := Text.ignoresEnds_map_splitOnP (p := fun c => c = '\x60') htick
    (Text.ignoresEnds_trim.comp clean)
  have hspans : codeSpans = fun t =>
      everyOther (((t.splitOnP (· = '\x60')).map fun s => clean (Text.trim s)).drop 1) := by
    funext t
    rw [codeSpans, everyOther_map, List.map_drop]
  rw [hspans]
  exact hparts.comp fun parts => everyOther (parts.drop 1)

theorem ignoresEnds_references : IgnoresEnds (references L) :=
  ignoresEnds_codeSpans.map₂ ignoresEnds_cleanWords fun code list =>
    referencesFrom L code [] [] list

end Ends

end Genaryx.Copilot
