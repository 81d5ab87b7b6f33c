import LiChat.ChatLoading
import LiChat.General.Histories
import Mathlib.Data.List.DropRight

/-!
# The text field of a chat

The button beside the field sends the text or, where there is none, records an audio message.
A message that is sent or arrives clears the field, and the button is not told.
-/

namespace LiChat
open Histories

/-- The field, whether the button shows the image "send" or "mic", the texts that have been
sent, and how often the audio recorder has been presented. -/
structure Composer where
  text : String := ""
  isSend : Bool := false
  sent : List String := []
  recorders : ℕ := 0
  deriving DecidableEq

inductive ComposerEvent where
  | textViewDidChange (text : String)
  | didPressRightBarButton
  | added (items : List MessageDictionary)
  | mediaSent

/-- `jsq_stringByTrimingWhitespace`, with the characters of whitespaceAndNewlineCharacterSet. -/
def trimingWhitespace (whitespaceAndNewline : Char → Bool) (s : String) : String :=
  String.ofList ((s.toList.dropWhile whitespaceAndNewline).rdropWhile whitespaceAndNewline)

@[simp]
theorem trimingWhitespace_empty (whitespaceAndNewline : Char → Bool) :
    trimingWhitespace whitespaceAndNewline "" = "" := by
  simp [trimingWhitespace]

namespace Composer

def updateSendButton (isSend : Bool) (c : Composer) : Composer := { c with isSend := isSend }

def textViewDidChange (text : String) (c : Composer) : Composer :=
  let c := { c with text := text }
  if text ≠ "" then c.updateSendButton true else c.updateSendButton false

def finishSendingMessage (c : Composer) : Composer := { c with text := "" }

def sendMessage (text : String) (c : Composer) : Composer :=
  { c.finishSendingMessage with sent := c.sent ++ [text] }

def didPressSend (text : String) (c : Composer) : Composer :=
  if text ≠ "" then (c.sendMessage text).updateSendButton false
  else { c with recorders := c.recorders + 1 }

theorem didPressSend_text (text : String) (c : Composer) :
    (c.didPressSend text).text = if text = "" then c.text else "" := by
  unfold didPressSend
  by_cases htext : text = "" <;> simp [htext, updateSendButton, sendMessage, finishSendingMessage]

theorem didPressSend_sent (text : String) (c : Composer) :
    (c.didPressSend text).sent = if text = "" then c.sent else c.sent ++ [text] := by
  unfold didPressSend
  by_cases htext : text = "" <;> simp [htext, updateSendButton, sendMessage]

def added (items : List MessageDictionary) (c : Composer) : Composer :=
  items.foldl (fun c item => if item.legit then c.finishSendingMessage else c) c

variable (whitespaceAndNewline : Char → Bool)

/-- An upload that completes and a shared location end with `finishSendingMessage`. -/
def step (c : Composer) : ComposerEvent → Composer
  | .textViewDidChange text => c.textViewDidChange text
  | .didPressRightBarButton => c.didPressSend (trimingWhitespace whitespaceAndNewline c.text)
  | .added items => c.added items
  | .mediaSent => c.finishSendingMessage

def run (events : List ComposerEvent) : Composer := events.foldl (step whitespaceAndNewline) {}

theorem run_concat (events : List ComposerEvent) (e : ComposerEvent) :
    run whitespaceAndNewline (events ++ [e]) =
      step whitespaceAndNewline (run whitespaceAndNewline events) e := List.foldl_concat _ _ _ _

theorem added_eq (items : List MessageDictionary) (c : Composer) :
    c.added items = if items.any MessageDictionary.legit then c.finishSendingMessage else c := by
  induction items generalizing c with
  | nil => rfl
  | cons item items ih =>
    rw [added, List.foldl_cons, ← added, ih, List.any_cons]
    by_cases hitem : item.legit
    · simp [hitem, finishSendingMessage]
    · simp [hitem]

end Composer

/-- What the writer means to send: the text written last, until it is sent. -/
structure Writer where
  draft : String := ""
  sent : List String := []

namespace Writer
variable (whitespaceAndNewline : Char → Bool)

def step (w : Writer) : ComposerEvent → Writer
  | .textViewDidChange text => { w with draft := text }
  | .didPressRightBarButton =>
    let message := trimingWhitespace whitespaceAndNewline w.draft
    if message = "" then w else ⟨"", w.sent ++ [message]⟩
  | _ => w

def run (events : List ComposerEvent) : Writer := events.foldl (step whitespaceAndNewline) {}

theorem run_concat (events : List ComposerEvent) (e : ComposerEvent) :
    run whitespaceAndNewline (events ++ [e]) =
      step whitespaceAndNewline (run whitespaceAndNewline events) e := List.foldl_concat _ _ _ _

end Writer

namespace ComposerEvent

def edits : ComposerEvent → Bool
  | textViewDidChange _ => true
  | _ => false

def clears : ComposerEvent → Bool
  | added items => items.any MessageDictionary.legit
  | mediaSent => true
  | _ => false

end ComposerEvent

/-- A message has been sent or has arrived since the last edit. -/
def Cleared (events : List ComposerEvent) : Prop :=
  ∃ e, latest (fun e => e.edits || e.clears) events = some e ∧ e.clears

theorem cleared_concat (events : List ComposerEvent) (e : ComposerEvent) :
    Cleared (events ++ [e]) ↔ e.clears ∨ ¬ e.edits ∧ Cleared events := by
  unfold Cleared
  rw [latest_concat]
  cases hedits : e.edits <;> cases hclears : e.clears <;> simp [hclears]

section
variable (whitespaceAndNewline : Char → Bool)
open Composer (run)

theorem text_cases (events : List ComposerEvent) :
    (Cleared events → (run whitespaceAndNewline events).text = "") ∧
      (¬ Cleared events → (run whitespaceAndNewline events).text =
        (Writer.run whitespaceAndNewline events).draft) := by
  induction events using List.reverseRecOn with
  | nil =>
    refine ⟨?_, fun _ => rfl⟩
    rintro ⟨e, h, -⟩
    cases h
  | append_singleton events e ih =>
    rw [cleared_concat, Composer.run_concat, Writer.run_concat]
    generalize run whitespaceAndNewline events = c at ih
    generalize Writer.run whitespaceAndNewline events = w at ih
    cases e with
    | textViewDidChange text =>
      have htext : (c.textViewDidChange text).text = text := by
        unfold Composer.textViewDidChange
        dsimp only
        split_ifs <;> rfl
      simp [ComposerEvent.edits, ComposerEvent.clears, Composer.step, Writer.step, htext]
    | didPressRightBarButton =>
      simp only [ComposerEvent.edits, ComposerEvent.clears, Composer.step, Writer.step,
        Composer.didPressSend_text, Bool.false_eq_true, not_false_eq_true, true_and, false_or]
      refine ⟨fun hcleared => ?_, fun hkept => ?_⟩
      · rw [ih.1 hcleared, ite_self]
      · rw [ih.2 hkept]
        split_ifs <;> rfl
    | added items =>
      simp only [ComposerEvent.edits, ComposerEvent.clears, Composer.step, Writer.step,
        Composer.added_eq, Bool.false_eq_true, not_false_eq_true, true_and, not_or]
      by_cases hlegit : items.any MessageDictionary.legit
      · simp [hlegit, Composer.finishSendingMessage]
      · simpa [hlegit] using ih
    | mediaSent => simp [ComposerEvent.clears, Composer.step, Composer.finishSendingMessage]

/-- The microphone is shown beside an empty field only. -/
theorem text_of_mic (events : List ComposerEvent)
    (h : (run whitespaceAndNewline events).isSend = false) :
    (run whitespaceAndNewline events).text = "" := by
  induction events using List.reverseRecOn with
  | nil => rfl
  | append_singleton events e ih =>
    rw [Composer.run_concat] at h ⊢
    generalize run whitespaceAndNewline events = c at ih h
    cases e with
    | textViewDidChange text =>
      by_cases htext : text = ""
      · subst htext
        rfl
      · simp [Composer.step, Composer.textViewDidChange, htext, Composer.updateSendButton] at h
    | didPressRightBarButton =>
      simp only [Composer.step, Composer.didPressSend] at h ⊢
      split_ifs at h ⊢
      · rfl
      · exact ih h
    | added items =>
      simp only [Composer.step, Composer.added_eq] at h ⊢
      split_ifs at h ⊢
      · rfl
      · exact ih h
    | mediaSent => rfl

/-- A press comes when a draft that is not blank has been cleared. -/
def LosesDraft (pre : List ComposerEvent) : Prop :=
  Cleared pre ∧ trimingWhitespace whitespaceAndNewline (Writer.run whitespaceAndNewline pre).draft ≠ ""

theorem sent_concat (events : List ComposerEvent) (e : ComposerEvent) :
    ∃ messages drafts : List String,
      (run whitespaceAndNewline (events ++ [e])).sent =
        (run whitespaceAndNewline events).sent ++ messages ∧
      (Writer.run whitespaceAndNewline (events ++ [e])).sent =
        (Writer.run whitespaceAndNewline events).sent ++ drafts ∧
      (messages = drafts ∧
          ¬ (e = .didPressRightBarButton ∧ LosesDraft whitespaceAndNewline events) ∨
        messages = [] ∧ drafts ≠ [] ∧
          e = .didPressRightBarButton ∧ LosesDraft whitespaceAndNewline events) := by
  obtain ⟨hcleared, hkept⟩ := text_cases whitespaceAndNewline events
  rw [Composer.run_concat, Writer.run_concat]
  unfold LosesDraft
  generalize run whitespaceAndNewline events = c at hcleared hkept
  generalize Writer.run whitespaceAndNewline events = w at hkept
  cases e with
  | textViewDidChange text =>
    refine ⟨[], [], ?_, (List.append_nil _).symm, .inl ⟨rfl, by simp⟩⟩
    rw [List.append_nil, Composer.step, Composer.textViewDidChange]
    split_ifs <;> rfl
  | didPressRightBarButton =>
    simp only [Composer.step, Writer.step, Composer.didPressSend_sent]
    by_cases hblank : trimingWhitespace whitespaceAndNewline w.draft = ""
    · have htext : trimingWhitespace whitespaceAndNewline c.text = "" := by
        by_cases h : Cleared events
        · rw [hcleared h, trimingWhitespace_empty]
        · rw [hkept h, hblank]
      rw [if_pos htext, if_pos hblank]
      exact ⟨[], [], (List.append_nil _).symm, (List.append_nil _).symm,
        .inl ⟨rfl, fun h => h.2.2 hblank⟩⟩
    · -- the draft is lost exactly if the field has been cleared
      rw [if_neg hblank]
      by_cases h : Cleared events
      · rw [hcleared h, trimingWhitespace_empty, if_pos rfl]
        exact ⟨[], [_], (List.append_nil _).symm, rfl,
          .inr ⟨rfl, List.cons_ne_nil _ _, trivial, h, hblank⟩⟩
      · rw [hkept h, if_neg hblank]
        exact ⟨[_], [_], rfl, rfl, .inl ⟨rfl, fun hlost => h hlost.2.1⟩⟩
  | added items =>
    refine ⟨[], [], ?_, (List.append_nil _).symm, .inl ⟨rfl, by simp⟩⟩
    rw [List.append_nil, Composer.step, Composer.added_eq]
    split_ifs <;> rfl
  | mediaSent => exact ⟨[], [], by simp [Composer.step, Composer.finishSendingMessage],
      (List.append_nil _).symm, .inl ⟨rfl, by simp⟩⟩

/-- For every run of edits, presses, arriving messages and uploads: the field has the draft of
the writer unless a message has cleared it, the microphone is shown beside an empty field only,
and the texts that are sent are the drafts exactly when no press comes on a draft that has been
cleared. -/
theorem composer_sends_drafts_iff (events : List ComposerEvent) :
    ((Cleared events → (run whitespaceAndNewline events).text = "") ∧
      (¬ Cleared events → (run whitespaceAndNewline events).text =
        (Writer.run whitespaceAndNewline events).draft)) ∧
    ((run whitespaceAndNewline events).isSend = false →
      (run whitespaceAndNewline events).text = "") ∧
    ((run whitespaceAndNewline events).sent = (Writer.run whitespaceAndNewline events).sent ↔
      ∀ pre, pre ++ [.didPressRightBarButton] <+: events → ¬ LosesDraft whitespaceAndNewline pre) := by
  refine ⟨text_cases whitespaceAndNewline events, text_of_mic whitespaceAndNewline events, ?_⟩
  -- a text that has not been sent leaves the list shorter from then on
  have hlength : ∀ events, (run whitespaceAndNewline events).sent.length ≤
      (Writer.run whitespaceAndNewline events).sent.length := by
    intro events
    induction events using List.reverseRecOn with
    | nil => exact le_rfl
    | append_singleton events e ih =>
      obtain ⟨messages, drafts, hsent, hdrafts, hcases⟩ := sent_concat whitespaceAndNewline events e
      rw [hsent, hdrafts, List.length_append, List.length_append]
      rcases hcases with ⟨rfl, -⟩ | ⟨rfl, -, -⟩
      · omega
      · rw [List.length_nil]
        omega
  induction events using List.reverseRecOn with
  | nil =>
    refine ⟨fun _ pre hpre => ?_, fun _ => rfl⟩
    exact absurd (List.prefix_nil.mp hpre) (by simp)
  | append_singleton events e ih =>
    obtain ⟨messages, drafts, hsent, hdrafts, hcases⟩ := sent_concat whitespaceAndNewline events e
    have hprefix : (∀ pre, pre ++ [.didPressRightBarButton] <+: events ++ [e] →
          ¬ LosesDraft whitespaceAndNewline pre) ↔
        ¬ (e = .didPressRightBarButton ∧ LosesDraft whitespaceAndNewline events) ∧
          ∀ pre, pre ++ [.didPressRightBarButton] <+: events →
            ¬ LosesDraft whitespaceAndNewline pre := by
      simp only [List.prefix_concat_iff, or_imp, forall_and]
      refine and_congr_left fun _ => ⟨fun h ⟨he, hlost⟩ => h events (by rw [he]) hlost, ?_⟩
      intro h pre hpre hlost
      obtain ⟨rfl, he⟩ := List.append_inj' hpre rfl
      exact h ⟨(List.cons.inj he).1.symm, hlost⟩
    rw [hsent, hdrafts, hprefix]
    rcases hcases with ⟨rfl, hkeeps⟩ | ⟨rfl, hne, hloses⟩
    · rw [List.append_left_inj]
      exact ih.trans (and_iff_right hkeeps).symm
    · refine iff_of_false (fun heq => ?_) (fun h => h.1 hloses)
      have hle := hlength events
      rw [List.append_nil] at heq
      have hshort := congrArg List.length heq
      have hpos := List.length_pos_of_ne_nil hne
      rw [List.length_append] at hshort
      omega

/-- A message arrives before the press, which presents the recorder under the image "send". -/
example : (run (· = ' ') [.textViewDidChange "hi ", .added [{ type := some kTEXT }],
    .didPressRightBarButton]) = ⟨"", true, [], 1⟩ ∧
    (Writer.run (· = ' ') [.textViewDidChange "hi ", .didPressRightBarButton]).sent = ["hi"] := by
  decide +kernel

end

end LiChat
