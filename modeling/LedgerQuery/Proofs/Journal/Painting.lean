import LedgerQuery.Coordinator
import LedgerQuery.Journal.Line
import LedgerQuery.Proofs.Client.Envelope
import LedgerQuery.Proofs.Json.Written
import LedgerQuery.Proofs.Text.Replace

/-! How the console shows that a query failed. The words of success and failure are painted wherever
they stand, so also in the text of the error, and one success leaves all failures unpainted. -/

namespace LedgerQuery

namespace Event

def mark (style : String) : String := escape ++ style ++ "m"

def marks (color text : String) : Nat :=
  Text.count (mark ("1;" ++ color)).toList text.toList

def IsColor (color : String) : Prop := color.toList.all Char.isDigit = true

structure IsWord (word : String) : Prop where
  ne_nil : word.toList ≠ []
  capital : word.toList.all Char.isUpper = true

lemma not_isUpper_of_isDigit {c : Char} (h : c.isDigit = true) : c.isUpper = false := by
  have hdigit : c.val ≤ '9'.val := of_decide_eq_true (Bool.and_eq_true_iff.mp h).2
  have hnot : ¬(c.val ≥ 'A'.val ∧ c.val ≤ 'Z'.val) := by
    intro hupper
    exact absurd (UInt32.le_trans hupper.1 hdigit) (by decide)
  exact decide_eq_false hnot

lemma isWord_success : IsWord successWord := ⟨by decide, rfl⟩

lemma isWord_failure : IsWord failureWord := ⟨by decide, rfl⟩

lemma isColor_success : IsColor successColor := rfl

lemma isColor_failure : IsColor failureColor := rfl

lemma IsColor.isDigit {color : String} (h : IsColor color) {c : Char} (hc : c ∈ color.toList) :
    c.isDigit = true := List.all_eq_true.mp h c hc

lemma IsWord.isUpper {word : String} (h : IsWord word) {c : Char} (hc : c ∈ word.toList) :
    c.isUpper = true := List.all_eq_true.mp h.capital c hc

section Marks

variable {color other word : String}

lemma toList_mark (style : String) :
    (mark style).toList = '\x1b' :: '[' :: (style.toList ++ ['m']) := by
  simp [mark, escape]

lemma toList_paint (style text : String) :
    (paint style text).toList = (mark style).toList ++ text.toList ++ (mark "0").toList := by
  simp [paint, mark]

structure Style (style : String) : Prop where
  not_escape : '\x1b' ∉ style.toList
  not_end : 'm' ∉ style.toList

lemma IsColor.bold (h : IsColor color) : Style ("1;" ++ color) := by
  have hnot {c : Char} (hc : c.isDigit = false) (hother : c ≠ '1' ∧ c ≠ ';') :
      c ∉ ("1;" ++ color).toList := by
    intro hmem
    obtain rfl | rfl | hmem : c = '1' ∨ c = ';' ∨ c ∈ color.toList := by simpa using hmem
    · exact hother.1 rfl
    · exact hother.2 rfl
    · exact absurd (h.isDigit hmem) (Bool.eq_false_iff.mp hc)
  exact ⟨hnot (by decide) (by decide), hnot (by decide) (by decide)⟩

lemma style_reset : Style "0" := ⟨by decide, by decide⟩

lemma IsWord.foreign (hword : IsWord word) (hcolor : IsColor color) :
    ∀ c ∈ word.toList, c ∉ (mark ("1;" ++ color)).toList := by
  intro c hc hmem
  have hupper := hword.isUpper hc
  obtain rfl | rfl | rfl | rfl | hmem | rfl : c = '\x1b' ∨ c = '[' ∨ c = '1' ∨ c = ';' ∨
      c ∈ color.toList ∨ c = 'm' := by simpa [toList_mark] using hmem
  case inr.inr.inr.inr.inl =>
    exact Bool.eq_false_iff.mp (not_isUpper_of_isDigit (hcolor.isDigit hmem)) hupper
  all_goals exact absurd hupper (by decide)

lemma count_mark {s t : String} (hs : Style s) (ht : Style t) (before after : List Char) :
    Text.count (mark t).toList (before ++ (mark s).toList ++ after) =
      Text.count (mark t).toList before + (if s = t then 1 else 0) +
        Text.count (mark t).toList after := by
  have hescape {style : String} (h : Style style) : '\x1b' ∉ '[' :: (style.toList ++ ['m']) := by
    simpa using h.not_escape
  have hprefix : ('[' :: (t.toList ++ ['m'])).isPrefixOf ('[' :: (s.toList ++ 'm' :: after)) =
      decide (s = t) := by
    rw [List.isPrefixOf_cons_cons, beq_self_eq_true, Bool.true_and,
      Text.isPrefixOf_ended hs.not_end ht.not_end]
    exact decide_eq_decide.mpr String.toList_inj
  have hrest := Text.count_append_of_not_mem (hescape hs) ('[' :: (t.toList ++ ['m'])) after
  have hafter : '[' :: (s.toList ++ ['m']) ++ after = '[' :: (s.toList ++ 'm' :: after) := by simp
  rw [toList_mark, toList_mark, List.append_assoc, List.cons_append, hafter,
    Text.count_head (hescape ht), Text.count, List.isPrefixOf_cons_cons, beq_self_eq_true,
    Bool.true_and, hprefix, ← hafter, hrest, Nat.add_assoc]
  simp only [decide_eq_true_eq]

lemma count_bold (hword : IsWord word) (hcolor : IsColor color) (hother : IsColor other)
    (before after : List Char) :
    Text.count (mark ("1;" ++ other)).toList (before ++ (bold color word).toList ++ after) =
      Text.count (mark ("1;" ++ other)).toList (before ++ word.toList ++ after) +
        if color = other then 1 else 0 := by
  have hmark : (mark ("1;" ++ other)).toList ≠ [] := by simp [toList_mark]
  have hreset : "0" ≠ "1;" ++ other := by
    intro h
    have hhead := congrArg (fun s => s.toList.head?) h
    simp at hhead
  have hsame : ("1;" ++ color = "1;" ++ other) = (color = other) := by simp
  have hforeign := hword.foreign hother
  have hpainted : before ++ (bold color word).toList ++ after =
      before ++ (mark ("1;" ++ color)).toList ++
        (word.toList ++ ((mark "0").toList ++ after)) := by
    rw [bold, toList_paint]
    simp only [List.append_assoc]
  have hplain := Text.count_foreign hmark hword.ne_nil hforeign [] ((mark "0").toList ++ after)
  have hended := count_mark style_reset hother.bold [] after
  rw [List.nil_append] at hplain hended
  rw [hpainted, count_mark hcolor.bold hother.bold, hplain, hended, if_neg hreset,
    Text.count_foreign hmark hword.ne_nil hforeign]
  simp only [hsame, Text.count]
  omega

end Marks

section Highlights

variable {color other word : String}

lemma highlight_of_not_occurs {text : String}
    (h : Text.occurs word.toList text.toList = false) : highlight word color text = text := by
  rw [highlight, Text.replaceWord_of_not_occurs h, String.ofList_toList]

lemma highlight_self (hword : IsWord word) : highlight word color word = bold color word := by
  have hself := Text.replaceWord_append hword.ne_nil (bold color word).toList []
  rw [List.append_nil, Text.replaceWord, List.append_nil] at hself
  rw [highlight, hself, String.ofList_toList]

lemma IsWord.not_space (hword : IsWord word) : ' ' ∉ word.toList := by
  intro hmem
  exact absurd (hword.isUpper hmem) (by decide)

lemma occurs_spaced (hword : IsWord word) (before after : String) :
    Text.occurs word.toList (before ++ " " ++ after).toList =
      (Text.occurs word.toList before.toList || Text.occurs word.toList after.toList) := by
  rw [← Text.occurs_divided hword.ne_nil hword.not_space]
  simp

lemma highlight_spaced (hword : IsWord word) (before after : String) :
    highlight word color (before ++ " " ++ after) =
      highlight word color before ++ " " ++ highlight word color after := by
  have hdivided := Text.replaceWord_divided hword.ne_nil hword.not_space (bold color word).toList
    before.toList after.toList
  rw [highlight, highlight, highlight, ← String.toList_inj]
  simp [hdivided]

lemma marks_highlight_of_ne (hword : IsWord word) (hcolor : IsColor color)
    (hother : IsColor other) (hne : color ≠ other) (text : String) :
    marks other (highlight word color text) = marks other text := by
  obtain ⟨k, -, hcount⟩ := Text.count_replaceWord hword.ne_nil (count_bold hword hcolor hother)
    text.toList
  simpa [marks, highlight, hne] using hcount []

lemma marks_lt_highlight (hword : IsWord word) (hcolor : IsColor color) {text : String}
    (h : Text.occurs word.toList text.toList = true) :
    marks color text < marks color (highlight word color text) := by
  obtain ⟨k, hk, hcount⟩ := Text.count_replaceWord hword.ne_nil (count_bold hword hcolor hcolor)
    text.toList
  have hmore : marks color (highlight word color text) = marks color text + k := by
    simpa [marks, highlight] using hcount []
  exact hmore ▸ Nat.lt_add_of_pos_right (hk h)

end Highlights

section Failures

variable {word label text : String}

def place (index : Nat) : String := "on chunk " ++ toString index ++ ":"

def failureText (label : String) (index : Nat) (text : String) : String :=
  label ++ " " ++ (failureWord ++ " " ++ (place index ++ " " ++ text))

lemma not_occurs_place (hword : IsWord word) (index : Nat) :
    Text.occurs word.toList (place index).toList = false := by
  have hsmall : "on chunk ".toList.all (!·.isUpper) = true := rfl
  have hnone : ∀ c ∈ (place index).toList, c.isUpper = false := by
    intro c hmem
    rw [place, String.toList_append, String.toList_append, List.mem_append, List.mem_append,
      Nat.toString_eq_repr, Nat.toList_repr] at hmem
    rcases hmem with (hmem | hmem) | hmem
    · simpa using List.all_eq_true.mp hsmall c hmem
    · exact not_isUpper_of_isDigit (Nat.isDigit_of_mem_toDigits (by decide) (by decide) hmem)
    · obtain rfl : c = ':' := by simpa using hmem
      rfl
  obtain ⟨c, hc⟩ := List.exists_mem_of_ne_nil _ hword.ne_nil
  refine Text.occurs_eq_false hc fun hmem => ?_
  exact Bool.eq_false_iff.mp (hnone c hmem) (hword.isUpper hc)

lemma occurs_failureText (hword : IsWord word) (label : String) (index : Nat) (text : String) :
    Text.occurs word.toList (failureText label index text).toList =
      (Text.occurs word.toList label.toList || (Text.occurs word.toList failureWord.toList ||
        Text.occurs word.toList text.toList)) := by
  rw [failureText, occurs_spaced hword, occurs_spaced hword, occurs_spaced hword,
    not_occurs_place hword, Bool.false_or]

lemma highlight_failureText (hword : IsWord word) (color label : String) (index : Nat)
    (text : String) :
    highlight word color (failureText label index text) =
      highlight word color label ++ " " ++ (highlight word color failureWord ++ " " ++
        (place index ++ " " ++ highlight word color text)) := by
  rw [failureText, highlight_spaced hword, highlight_spaced hword, highlight_spaced hword,
    highlight_of_not_occurs (not_occurs_place hword index)]

lemma occurs_failure (label : String) (index : Nat) (text : String) :
    Text.occurs failureWord.toList (failureText label index text).toList = true := by
  have hself : Text.occurs failureWord.toList failureWord.toList = true := by decide
  rw [occurs_failureText isWord_failure, hself, Bool.true_or, Bool.or_true]

lemma occurs_success (hlabel : Text.occurs successWord.toList label.toList = false) (index : Nat)
    (text : String) : Text.occurs successWord.toList (failureText label index text).toList =
      Text.occurs successWord.toList text.toList := by
  have hfailure : Text.occurs successWord.toList failureWord.toList = false := by decide
  rw [occurs_failureText isWord_success, hlabel, hfailure, Bool.false_or, Bool.false_or]

lemma consoleText_info (target message : String) :
    (⟨.info, target, message⟩ : Event).consoleText = colorize message := by
  have hcalm : ¬Level.info.atLeast .warn = true := by decide
  rw [consoleText, if_neg hcalm, String.empty_append]

end Failures

end Event

namespace Envelope

open Json

lemma readPageBy_text {τ : Type} (take : Json → Except String τ) (resource text : String) :
    readPageBy (Utf8.ofString (Json.obj [("_embedded", .obj [(resource, .str text)])]).write)
        resource take =
      .error (.decode ("'" ++ resource ++ "' is not an array: " ++ writeString text)) := by
  have hproper : (Json.obj [("_embedded", .obj [(resource, .str text)])]).Proper :=
    ⟨List.pairwise_singleton _ _, ⟨List.pairwise_singleton _ _, trivial, trivial⟩, trivial⟩
  have hnesting : nesting (.obj [("_embedded", .obj [(resource, .str text)])]) < Scan.levels := by
    simp [nesting, nestingMembers, Scan.levels]
  obtain ⟨hread, -⟩ := Record.readAll_document record_reads (document_write hproper) hnesting
  have hlookup : lookup resource [(resource, Json.str text)] = some (.str text) := by
    simp [lookup]
  rw [readPageBy, read, hread ⟨some [(resource, .str text)], none⟩ rfl]
  simp only [Functor.map, Except.map, ofParts, Option.getD, pageBy, itemsBy, hlookup, write]

end Envelope

namespace Coordinator

open Event

variable {τ : Type} {c : Coordinator τ}

lemma events_fail (hpending : c.phase = .pending) (index : Nat) (error : QueryError) :
    (c.fail index error).notes.events =
      [⟨.info, outcomeTarget, failureText c.label index error.message⟩] := by
  have hmessage : c.label ++ " FAILED on " ++ ("chunk " ++ toString index) ++ ": " ++
      error.message = failureText c.label index error.message := by
    rw [← String.toList_inj]
    simp [failureText, failureWord, place]
  simp only [fail, hpending, hmessage]
  rfl

/-- A failure is told by one event. Where its error does not tell of a success, the console shows
the word of failure, and any other such word, in red, and no more green than the message has. Where
the error does tell of one, the console shows that in green, and the failure not in red. -/
theorem failure_shown (hpending : c.phase = .pending)
    (hlabel : Text.occurs successWord.toList c.label.toList = false) (index : Nat)
    (error : QueryError) :
    ∃ e, (c.fail index error).notes.events = [e] ∧ e.level = .info ∧ e.target = outcomeTarget ∧
      e.message = c.label ++ " " ++ (failureWord ++ " " ++ (place index ++ " " ++ error.message)) ∧
      (Text.occurs successWord.toList error.message.toList = false →
        e.consoleText = highlight failureWord failureColor c.label ++ " " ++
          (bold failureColor failureWord ++ " " ++ (place index ++ " " ++
            highlight failureWord failureColor error.message)) ∧
        marks failureColor e.message < marks failureColor e.consoleText ∧
        marks successColor e.consoleText = marks successColor e.message) ∧
      (Text.occurs successWord.toList error.message.toList = true →
        e.consoleText = c.label ++ " " ++ (failureWord ++ " " ++ (place index ++ " " ++
          highlight successWord successColor error.message)) ∧
        marks failureColor e.consoleText = marks failureColor e.message ∧
        marks successColor e.message < marks successColor e.consoleText) := by
  have hfailure : highlight successWord successColor failureWord = failureWord :=
    highlight_of_not_occurs (by decide)
  refine ⟨_, events_fail hpending index error, rfl, rfl, rfl, fun hquiet => ?_, fun htold => ?_⟩
  · rw [consoleText_info, colorize, occurs_success hlabel, hquiet, if_neg Bool.false_ne_true,
      if_pos (occurs_failure c.label index error.message)]
    refine ⟨?_, marks_lt_highlight isWord_failure isColor_failure (occurs_failure _ _ _),
      marks_highlight_of_ne isWord_failure isColor_failure isColor_success (by decide) _⟩
    rw [highlight_failureText isWord_failure, highlight_self isWord_failure]
  · have hoccurs := (occurs_success hlabel index error.message).trans htold
    rw [consoleText_info, colorize, if_pos hoccurs]
    refine ⟨?_, marks_highlight_of_ne isWord_success isColor_success isColor_failure (by decide) _,
      marks_lt_highlight isWord_success isColor_success hoccurs⟩
    rw [highlight_failureText isWord_success, hfailure, highlight_of_not_occurs hlabel]

theorem failure_shown_of_number :
    let c : Coordinator Json := .start "transfers" [⟨0, ["x"]⟩]
    c.phase = .pending ∧ Text.occurs successWord.toList c.label.toList = false ∧
      ∃ e, (c.fail 0 (.decode "'transfers' is not an array: 5")).notes.events = [e] ∧
        e.consoleText = "transfers \x1b[1;91mFAILED\x1b[0m on chunk 0: " ++
          "Failed to decode response: 'transfers' is not an array: 5" ∧
        marks successColor e.consoleText = 0 := by
  intro c
  have hlabel : Text.occurs successWord.toList c.label.toList = false := by decide
  obtain ⟨e, hevents, -, -, hmessage, hquiet, -⟩ :=
    failure_shown (c := c) rfl hlabel 0 (.decode "'transfers' is not an array: 5")
  obtain ⟨hconsole, -, hgreen⟩ := hquiet (by decide +kernel)
  refine ⟨rfl, hlabel, e, hevents, ?_, ?_⟩
  · rw [hconsole, highlight_of_not_occurs (by decide), highlight_of_not_occurs (by decide +kernel)]
    decide +kernel
  · rw [hgreen, hmessage]
    decide +kernel

theorem failure_shown_as_success :
    ¬ ∀ (c : Coordinator Json) (index : Nat) (bytes : List UInt8) (error : QueryError),
      c.phase = .pending → Text.occurs successWord.toList c.label.toList = false →
      Envelope.readPage bytes "transfers" .entity = .error error →
      ∀ e ∈ (c.fail index error).notes.events,
        marks failureColor e.message < marks failureColor e.consoleText ∧
        marks successColor e.consoleText = marks successColor e.message := by
  intro h
  let c : Coordinator Json := .start "transfers" [⟨0, ["x"]⟩]
  let error : QueryError :=
    .decode ("'transfers' is not an array: " ++ Json.writeString successWord)
  have hread : Envelope.readPage _ "transfers" .entity = .error error :=
    Envelope.readPageBy_text ItemKind.entity.take "transfers" successWord
  have hlabel : Text.occurs successWord.toList c.label.toList = false := by decide
  have herror : Text.occurs successWord.toList error.message.toList = true := by decide +kernel
  have htold := (occurs_success hlabel 0 error.message).trans herror
  have hevents := events_fail (c := c) rfl 0 error
  obtain ⟨-, hgreen⟩ := h c 0 _ error rfl hlabel hread _ (hevents ▸ List.mem_singleton_self _)
  rw [consoleText_info, colorize, if_pos htold] at hgreen
  exact absurd hgreen (marks_lt_highlight isWord_success isColor_success htold).ne'

end Coordinator

end LedgerQuery
