import Genaryx.Base.Matches
import Genaryx.Copilot.Grounding

/-!
# Tokens named whole

A token is named in a text when it stands in it with no letter, digit, hyphen or underscore beside
it. The search goes on at the end of a match that has one, and does not look within that match.
-/

namespace Genaryx.Copilot

variable (L : Letters)

/-- A token stands in a text with no character of an id beside it. -/
def StandsWhole (text token : Text) : Prop :=
  ∃ before after, text = before ++ token ++ after ∧
    before.getLast?.any (isIdChar L) = false ∧ after.head?.any (isIdChar L) = false

/-- It does so at a place that begins within no match that the search has made before. -/
def ReachedWhole (text token : Text) : Prop :=
  ∃ before after, text = before ++ token ++ after ∧ Text.Reached token before ∧
    before.getLast?.any (isIdChar L) = false ∧ after.head?.any (isIdChar L) = false

/-- A token ends with a part that it also begins with, and that no character of an id stands
before. -/
def Interlocks (token : Text) : Prop :=
  ∃ u b, token = u ++ b ∧ u ≠ [] ∧ b ≠ [] ∧ b <+: token ∧ u.getLast?.any (isIdChar L) = false

/-- When a token is found exactly where it stands whole. -/
structure NamedWhen : Prop where
  /-- In one text, for the three that search for tokens. -/
  names : ∀ text token, plain L token ≠ [] →
    ((names L text token = true ↔ StandsWhole L (plain L text) (plain L token)) ↔
      (StandsWhole L (plain L text) (plain L token) →
        ReachedWhole L (plain L text) (plain L token)))
  runs : ∀ clause known run, run ∈ known → run ≠ [] →
    ((run ∈ runsNamed L clause known ↔ StandsWhole L clause run) ↔
      (StandsWhole L clause run → ReachedWhole L clause run))
  agents : ∀ clause agents label, (∃ agent ∈ agents, agentLabel L agent = label) → label ≠ [] →
    (((label, agents.filter (agentLabel L · = label)) ∈ agentsNamed L clause agents ↔
        StandsWhole L (L.toLowercase clause) label) ↔
      (StandsWhole L (L.toLowercase clause) label → ReachedWhole L (L.toLowercase clause) label))
  /-- In every text. -/
  always : ∀ token, token ≠ [] →
    ((∀ text, namesWhole L text token = true ↔ StandsWhole L text token) ↔ ¬ Interlocks L token)

section Search

variable {L} {text token : Text}

theorem ReachedWhole.standsWhole (h : ReachedWhole L text token) : StandsWhole L text token := by
  obtain ⟨before, after, htext, _, hwhole⟩ := h
  exact ⟨before, after, htext, hwhole⟩

/-- The search finds what it reaches. -/
theorem namesWhole_iff (hne : token ≠ []) :
    namesWhole L text token = true ↔ ReachedWhole L text token := by
  simp only [namesWhole, List.any_eq_true, Bool.and_eq_true, Bool.not_eq_true', Prod.exists]
  constructor
  · rintro ⟨x, after, hfound, hbefore, hafter⟩
    obtain ⟨before, htext, hreached, rfl⟩ := (Text.mem_occurrences_iff hne).mp hfound
    rw [List.head?_reverse] at hbefore
    exact ⟨before, after, htext, hreached, hbefore, hafter⟩
  · rintro ⟨before, after, htext, hreached, hbefore, hafter⟩
    refine ⟨before.reverse, after, (Text.mem_occurrences_iff hne).mpr ⟨before, htext, hreached, rfl⟩,
      ?_, hafter⟩
    rwa [List.head?_reverse]

theorem namesWhole_exact_iff (hne : token ≠ []) :
    (namesWhole L text token = true ↔ StandsWhole L text token) ↔
      (StandsWhole L text token → ReachedWhole L text token) := by
  rw [namesWhole_iff hne]
  exact ⟨fun h => h.mpr, fun h => ⟨ReachedWhole.standsWhole, h⟩⟩

/-- A token that does not interlock is reached wherever it stands whole. -/
theorem reachedWhole_of_standsWhole (hne : token ≠ []) (hfree : ¬ Interlocks L token)
    (h : StandsWhole L text token) : ReachedWhole L text token := by
  obtain ⟨before, after, htext, hbefore, hafter⟩ := h
  rcases Text.reached_or_within hne before after with hreached | ⟨b, u, _, rfl, hu, hshort, hwithin⟩
  · exact ⟨before, after, htext, hreached, hbefore, hafter⟩
  · refine absurd ?_ hfree
    -- The match begins with `u`, and what is left of it begins the token again.
    obtain ⟨rest, hrest⟩ : u <+: token :=
      List.prefix_of_prefix_length_le ⟨token ++ after, by rw [List.append_assoc]⟩ hwithin
        hshort.le
    refine ⟨u, rest, hrest.symm, hu, ?_, ?_, ?_⟩
    · rintro rfl
      rw [List.append_nil] at hrest
      exact absurd (congrArg List.length hrest) hshort.ne
    · obtain ⟨tail, htail⟩ := hwithin
      have hboth : u ++ (rest ++ tail) = u ++ (token ++ after) := by
        rw [← List.append_assoc, hrest, htail, List.append_assoc]
      have hbegins : rest ++ tail = token ++ after := List.append_cancel_left hboth
      refine List.prefix_of_prefix_length_le ⟨tail, hbegins⟩ (List.prefix_append token after) ?_
      rw [← hrest, List.length_append]
      exact Nat.le_add_left _ _
    · rwa [List.getLast?_append_of_ne_nil b hu] at hbefore

theorem isIdChar_of_isAlpha {c : Char} (hascii : c.toNat < 0x80) (hc : c.isAlpha = true) :
    isIdChar L c = true := by
  rw [isIdChar, Letters.isAlphanumeric, (L.ascii c hascii).1, hc]
  rfl

/-- A letter that a token does not begin with. -/
theorem exists_letter (token : Text) : ∃ c, isIdChar L c = true ∧ token.head? ≠ some c := by
  rcases eq_or_ne token.head? (some 'x') with hx | hx
  · exact ⟨'y', isIdChar_of_isAlpha (by decide) rfl, by rw [hx]; decide⟩
  · exact ⟨'x', isIdChar_of_isAlpha (by decide) rfl, hx⟩

/-- A token that interlocks is overlooked after a letter and the part before it. -/
theorem exists_hidden (hne : token ≠ []) (h : Interlocks L token) :
    ∃ text, StandsWhole L text token ∧ ¬ ReachedWhole L text token := by
  obtain ⟨u, b, hub, hu, hb, ⟨d, hbd⟩, hlast⟩ := h
  obtain ⟨c, hc, hhead⟩ := exists_letter (L := L) token
  have htext : c :: u ++ token = [c] ++ token ++ d := by
    calc
      c :: u ++ token = c :: (u ++ (b ++ d)) := by rw [hbd]; rfl
      _ = c :: (token ++ d) := by rw [← List.append_assoc, ← hub]
      _ = [c] ++ token ++ d := rfl
  have hclean : Text.Clean token [c] := by
    intro a b' hab
    refine List.length_pos_iff.mpr ?_
    rintro rfl
    obtain ⟨first, rest, rfl⟩ := List.exists_cons_of_ne_nil hne
    exact hhead (congrArg some (List.cons.inj hab).1.symm)
  refine ⟨c :: u ++ token, ⟨c :: u, [], by rw [List.append_nil], ?_, rfl⟩, ?_⟩
  · rwa [← List.singleton_append, List.getLast?_append_of_ne_nil [c] hu]
  · rintro ⟨before, after, hfound, hreached, hbefore, _⟩
    rw [htext] at hfound
    cases hreached with
    | first hfirst =>
        obtain ⟨rfl, _⟩ := hclean.unique hfirst hfound
        exact absurd hbefore (by simpa using hc)
    | next hfirst hnext =>
        rw [List.append_assoc (_ ++ token), List.append_assoc (_ ++ token)] at hfound
        obtain ⟨_, hrest⟩ := hclean.unique hfirst hfound
        have hshort := congrArg List.length hbd
        have hlong := congrArg List.length hrest
        have hpos := List.length_pos_iff.mpr hb
        simp only [List.length_append] at hshort hlong
        omega

theorem mem_insertText {s t : Text} {l : List Text} : t ∈ insertText s l ↔ t = s ∨ t ∈ l := by
  induction l with
  | nil => simp [insertText]
  | cons head rest ih =>
      rw [insertText]
      split
      · simp
      · split
        · next heq => simp [heq]
        · simp only [List.mem_cons, ih]
          tauto

theorem mem_foldl_insertText {t : Text} {new old : List Text} :
    t ∈ new.foldl (fun s x => insertText x s) old ↔ t ∈ new ∨ t ∈ old := by
  induction new generalizing old with
  | nil => simp
  | cons x new ih =>
      rw [List.foldl_cons, ih, mem_insertText, List.mem_cons]
      tauto

/-- An agent's label is among the agents a clause names when the clause names the label. -/
theorem mem_agentsNamed_iff {clause label : Text} {agents : List Text}
    (hagent : ∃ agent ∈ agents, agentLabel L agent = label) (hne : label ≠ []) :
    (label, agents.filter (agentLabel L · = label)) ∈ agentsNamed L clause agents ↔
      namesWhole L (L.toLowercase clause) label = true := by
  rw [agentsNamed, List.mem_filter, List.mem_map]
  refine and_iff_right ⟨label, ?_, rfl⟩
  rw [mem_foldl_insertText, List.mem_filter, List.mem_map]
  exact .inl ⟨hagent, by simpa using hne⟩

end Search

/-- A token is found exactly where it stands whole as long as one place where it does begins within
no earlier match, and that is so in every text when the token does not interlock. -/
theorem namedWhen : NamedWhen L where
  names text token hne := by
    have hscan : names L text token = namesWhole L (plain L text) (plain L token) := by
      rw [names, List.isEmpty_eq_false_iff.mpr hne]
      rfl
    rw [hscan]
    exact namesWhole_exact_iff hne
  runs clause known run hmem hne := by
    rw [runsNamed, List.mem_filter, and_iff_right hmem]
    exact namesWhole_exact_iff hne
  agents clause agents label hagent hne := by
    rw [mem_agentsNamed_iff hagent hne]
    exact namesWhole_exact_iff hne
  always token hne := by
    constructor
    · intro h hinterlocks
      obtain ⟨text, hstands, hhidden⟩ := exists_hidden hne hinterlocks
      exact hhidden ((namesWhole_iff hne).mp ((h text).mpr hstands))
    · intro hfree text
      exact (namesWhole_exact_iff hne).mpr (reachedWhole_of_standsWhole hne hfree)

section Example

/-- The match after the `x` hides the one that ends the text. -/
theorem names_overlooks :
    ¬ (∀ text token, token ≠ [] → (names Letters.asciiOnly text token = true ↔
      StandsWhole Letters.asciiOnly (plain Letters.asciiOnly text)
        (plain Letters.asciiOnly token))) := by
  intro h
  have hnot : names Letters.asciiOnly "xa:a:a".toList "a:a".toList = false := by decide
  have hstands : StandsWhole Letters.asciiOnly (plain Letters.asciiOnly "xa:a:a".toList)
      (plain Letters.asciiOnly "a:a".toList) :=
    ⟨"xa:".toList, [], by decide, by decide, by decide⟩
  rw [← h _ _ (by decide), hnot] at hstands
  exact absurd hstands Bool.false_ne_true

end Example

end Genaryx.Copilot
