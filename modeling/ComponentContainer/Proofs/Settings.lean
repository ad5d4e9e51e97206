/-
  File:      ComponentContainer/Proofs/Settings.lean
  Subject:   What the settings of a container are in each environment.

  * `Holds`, `Garbled` -- a variable that is there holds a text, or bytes that are none;
    `text?_eq_some_iff`, `text?_eq_none_iff` -- of the two, only texts are seen.
  * `Follows` -- how a setting follows from its variable: a text is read or refused, and the default
    stands in where there is nothing to read.
  * `Proper` -- the variable does not stand in the way; `Follows.ok_iff` -- just then there is a
    setting.
  * `settings_refused_unless_garbled` -- **for all environments.** `garbled_settings_ignored` -- a
    variable that is there and no text is passed over like one that is not there.
-/
import ComponentContainer.Proofs.Spellings

namespace ComponentContainer

namespace Environment

variable {e : Environment} {key text : String}

/-! ## 1. What a variable holds -/

/-- The variable holds the text. -/
def Holds (e : Environment) (key text : String) : Prop := e.bindings.find? key = some text.toUTF8

/-- The variable holds bytes that are no text. -/
def Garbled (e : Environment) (key : String) : Prop :=
  ∃ bytes, e.bindings.find? key = some bytes ∧ ∀ text : String, text.toUTF8 ≠ bytes

/-- Bytes are read as the text that is written so, if there is one. -/
theorem fromUTF8?_eq_some_iff {bytes : ByteArray} :
    String.fromUTF8? bytes = some text ↔ text.toUTF8 = bytes := by
  constructor
  · intro read
    unfold String.fromUTF8? at read
    split at read
    · cases read
      rfl
    · cases read
  · rintro rfl
    exact dif_pos text.isValidUTF8

theorem text?_eq_some_iff (plain : '=' ∉ key.toList) : e.text? key = some text ↔ e.Holds key text := by
  rw [text?_of_not_mem e plain, Holds, Option.bind_eq_some_iff]
  simp only [fromUTF8?_eq_some_iff]
  constructor
  · rintro ⟨bytes, found, rfl⟩
    exact found
  · exact fun found => ⟨_, found, rfl⟩

/-- Nothing is seen of a variable that is absent, nor of one that is garbled. -/
theorem text?_eq_none_iff (plain : '=' ∉ key.toList) :
    e.text? key = none ↔ e.bindings.find? key = none ∨ e.Garbled key := by
  rw [text?_of_not_mem e plain, Option.bind_eq_none_iff]
  simp only [Option.eq_none_iff_forall_ne_some, ne_eq, fromUTF8?_eq_some_iff]
  constructor
  · intro unread
    cases found : e.bindings.find? key with
    | none => exact .inl fun _ h => nomatch h
    | some bytes => exact .inr ⟨bytes, found, unread bytes found⟩
  · rintro (absent | ⟨bytes, found, garbled⟩)
    · exact fun bytes found => absurd found (absent bytes)
    · intro bytes' found'
      rw [found] at found'
      cases found'
      exact garbled

/-! ## 2. From variables to settings -/

section

variable {α : Type} {means : α → String → Prop} {default : α} {setting : Except Failure α}

/-- **How a setting follows from its variable.** A text is read for what it means and refused if it
    means nothing; if there is no text, there is the default. -/
structure Follows (e : Environment) (key : String) (means : α → String → Prop) (default : α)
    (setting : Except Failure α) : Prop where
  read : ∀ text, e.Holds key text → ∀ a, setting = .ok a ↔ means a text
  refused : ∀ text, e.Holds key text → (∀ a, ¬means a text) →
    ∃ flaw, setting = .error (.invalidConfiguration flaw)
  absent : e.bindings.find? key = none → setting = .ok default
  garbled : e.Garbled key → setting = .ok default

/-- The variable is absent or garbled, or its text means something. -/
def Proper (e : Environment) (key : String) (means : α → String → Prop) : Prop :=
  e.bindings.find? key = none ∨ e.Garbled key ∨ ∃ text a, e.Holds key text ∧ means a text

/-- A variable that is there holds a text or is garbled. -/
theorem absent_or_garbled_or_holds (e : Environment) (key : String) :
    e.bindings.find? key = none ∨ e.Garbled key ∨ ∃ text, e.Holds key text := by
  cases found : e.bindings.find? key with
  | none => exact .inl rfl
  | some bytes =>
      by_cases written : ∃ text : String, text.toUTF8 = bytes
      · obtain ⟨text, rfl⟩ := written
        exact .inr (.inr ⟨text, found⟩)
      · exact .inr (.inl ⟨bytes, found, not_exists.mp written⟩)

/-- There is a setting exactly if all is proper; otherwise it is refused. -/
def Settled (proper : Prop) (setting : Except Failure α) : Prop :=
  (proper ∧ ∃ a, setting = .ok a) ∨
    (¬proper ∧ ∃ flaw, setting = .error (.invalidConfiguration flaw))

/-- **There is a setting exactly if its variable is proper.** -/
theorem Follows.settled (follows : e.Follows key means default setting) :
    Settled (e.Proper key means) setting := by
  rcases e.absent_or_garbled_or_holds key with absent | garbled | ⟨text, holds⟩
  · exact .inl ⟨.inl absent, _, follows.absent absent⟩
  · exact .inl ⟨.inr (.inl garbled), _, follows.garbled garbled⟩
  · by_cases meant : ∃ a, means a text
    · obtain ⟨a, meant⟩ := meant
      exact .inl ⟨.inr (.inr ⟨text, a, holds, meant⟩), a, (follows.read text holds a).mpr meant⟩
    · obtain ⟨flaw, refused⟩ := follows.refused text holds (not_exists.mp meant)
      refine .inr ⟨?_, flaw, refused⟩
      rintro (absent | garbled | ⟨text', a, holds', meant'⟩)
      · rw [follows.absent absent] at refused
        cases refused
      · rw [follows.garbled garbled] at refused
        cases refused
      · rw [(follows.read text' holds' a).mpr meant'] at refused
        cases refused

theorem Settled.map {β : Type} {proper : Prop} (settled : Settled proper setting) (f : α → β) :
    Settled proper (setting.map f) := by
  rcases settled with ⟨proper, a, rfl⟩ | ⟨improper, flaw, rfl⟩
  · exact .inl ⟨proper, f a, rfl⟩
  · exact .inr ⟨improper, flaw, rfl⟩

/-- What takes two settings is there exactly if all is proper for both. -/
theorem Settled.bind {β : Type} {first second : Prop} {next : α → Except Failure β}
    (settled : Settled first setting) (further : ∀ a, Settled second (next a)) :
    Settled (first ∧ second) (setting >>= next) := by
  rcases settled with ⟨proper, a, rfl⟩ | ⟨improper, flaw, rfl⟩
  · rcases further a with ⟨proper', b, read⟩ | ⟨improper, flaw, refused⟩
    · exact .inl ⟨⟨proper, proper'⟩, b, read⟩
    · exact .inr ⟨fun both => improper both.2, flaw, refused⟩
  · exact .inr ⟨fun both => improper both.1, flaw, rfl⟩

/-- A setting that is looked up, and read if there is a text. -/
theorem follows_of_text? (plain : '=' ∉ key.toList)
    (read : ∀ text, e.text? key = some text → ∀ a, setting = .ok a ↔ means a text)
    (refused : ∀ text, e.text? key = some text → (∀ a, ¬means a text) →
      ∃ flaw, setting = .error (.invalidConfiguration flaw))
    (missing : e.text? key = none → setting = .ok default) :
    e.Follows key means default setting where
  read text holds := read text ((text?_eq_some_iff plain).mpr holds)
  refused text holds := refused text ((text?_eq_some_iff plain).mpr holds)
  absent absent := missing ((text?_eq_none_iff plain).mpr (.inl absent))
  garbled garbled := missing ((text?_eq_none_iff plain).mpr (.inr garbled))

end

/-! ## 3. The settings of a container -/

/-- The text is a numeral for the limit; no text means that there is none. -/
def MeansLimit (limit : Option Nat) (text : String) : Prop := ∃ n, limit = some n ∧ IsPassLimit n text

theorem overriding_follows (e : Environment) :
    e.Follows overridingKey IsBoolean true e.overriding := by
  refine follows_of_text? (by decide) (fun text found b => ?_) (fun text found neither => ?_)
    fun missing => ?_
  · rw [overriding, found]
    exact readBoolean_eq_ok_iff
  · rw [overriding, found]
    exact ⟨_, readBoolean_refused neither⟩
  · rw [overriding, missing]

theorem passLimit_follows (e : Environment) :
    e.Follows passLimitKey MeansLimit none e.passLimit := by
  refine follows_of_text? (by decide) (fun text found limit => ?_) (fun text found unfit => ?_)
    fun missing => ?_
  · rw [passLimit, found]
    simp only [MeansLimit, ← readPassLimit_eq_ok_iff]
    cases readPassLimit text with
    | error failure => simp [Except.map]
    | ok n => simp [Except.map, eq_comm]
  · rw [passLimit, found]
    obtain ⟨flaw, refused⟩ := readPassLimit_refused fun n numeral => unfit (some n) ⟨n, rfl, numeral⟩
    exact ⟨flaw, congrArg (Except.map some) refused⟩
  · rw [passLimit, missing]

/-- A limit is missing only where nothing says one. -/
theorem Follows.default_iff {setting : Except Failure (Option Nat)}
    (follows : e.Follows key MeansLimit none setting) :
    setting = .ok none ↔ e.bindings.find? key = none ∨ e.Garbled key := by
  constructor
  · intro unlimited
    rcases e.absent_or_garbled_or_holds key with absent | garbled | ⟨text, holds⟩
    · exact .inl absent
    · exact .inr garbled
    · obtain ⟨n, other, -⟩ := (follows.read text holds none).mp unlimited
      cases other
  · exact fun textless => textless.elim follows.absent follows.garbled

end Environment

open Environment

/-- **Settings are refused unless they can be read, or their variables are garbled.** In every
    environment:

    - overriding is what the text of its variable spells; a text that spells neither boolean is
      refused, and the default is taken only if there is no text, because the variable is absent or
      its bytes are none;
    - the same for the limit of passes, which a numeral gives; there is no limit only if there is no
      text;
    - the options of a bootstrap, and all that a context begins with, are there exactly if the
      variables that they depend on are proper; otherwise they are refused. -/
theorem settings_refused_unless_garbled (e : Environment) :
    e.Follows overridingKey IsBoolean true e.overriding ∧
    e.Follows passLimitKey MeansLimit none e.passLimit ∧
    (e.passLimit = .ok none ↔ e.bindings.find? passLimitKey = none ∨ e.Garbled passLimitKey) ∧
    Settled (e.Proper passLimitKey MeansLimit) e.bootstrapOptions ∧
    ∀ κ ι : Type, Settled (e.Proper overridingKey IsBoolean ∧ e.Proper passLimitKey MeansLimit)
      (e.setUp : Except Failure (Container κ ι × Bootstrap.Options)) := by
  have flags := e.overriding_follows
  have limits := e.passLimit_follows
  have options : Settled (e.Proper passLimitKey MeansLimit) e.bootstrapOptions :=
    limits.settled.map _
  refine ⟨flags, limits, limits.default_iff, options, fun κ ι => ?_⟩
  exact (flags.settled.map _).bind fun container => options.map _

/-- A boolean between wide spaces and in capitals, and a numeral with a sign and a zero in front and a
    line break behind. -/
def roundabout : Environment :=
  (Environment.setText {} overridingKey "\u2003OfF\u2003").setText passLimitKey "+08\n"

theorem roundabout_settings_read :
    roundabout.Holds overridingKey "\u2003OfF\u2003" ∧ roundabout.overriding = .ok false ∧
      roundabout.Holds passLimitKey "+08\n" ∧ roundabout.passLimit = .ok (some 8) := by
  obtain ⟨flags, limits, -⟩ := settings_refused_unless_garbled roundabout
  have flag : roundabout.Holds overridingKey "\u2003OfF\u2003" := by rfl
  have limit : roundabout.Holds passLimitKey "+08\n" := by rfl
  refine ⟨flag, (flags.read _ flag false).mpr ?_, limit, (limits.read _ limit (some 8)).mpr ?_⟩
  · exact isBoolean_iff.mpr (by decide +kernel)
  · refine ⟨8, rfl, ['+', '0', '8'], Text.trimmed_iff.mpr (by decide), ?_, by decide, by decide⟩
    exact ⟨['0', '8'], .inr rfl, by simp, by simp, by rfl⟩

/-- Both variables are there, and neither holds a text. -/
def garbled : Environment :=
  (Environment.set {} overridingKey ⟨#[255]⟩).set passLimitKey ⟨#[49, 255]⟩

/-- **Garbled settings are ignored**, although their variables are there and hold nothing that could be
    meant: the defaults are taken as if the variables were absent. -/
theorem garbled_settings_ignored :
    (∃ bytes, garbled.bindings.find? overridingKey = some bytes ∧
      ∀ (text : String) (b : Bool), IsBoolean b text → text.toUTF8 ≠ bytes) ∧
    (∃ bytes, garbled.bindings.find? passLimitKey = some bytes ∧
      ∀ (text : String) (n : Nat), IsPassLimit n text → text.toUTF8 ≠ bytes) ∧
    garbled.overriding = .ok true ∧ garbled.passLimit = .ok none := by
  have textless (bytes : ByteArray) (unread : String.fromUTF8? bytes = none) (text : String) :
      text.toUTF8 ≠ bytes := by
    intro written
    rw [fromUTF8?_eq_some_iff.mpr written] at unread
    cases unread
  refine ⟨⟨_, rfl, fun text _ _ => textless _ (by decide) text⟩,
    ⟨_, rfl, fun text _ _ => textless _ (by decide) text⟩, ?_, ?_⟩
  · decide +kernel
  · decide +kernel

end ComponentContainer
