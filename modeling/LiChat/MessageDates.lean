import LiChat.ChatLoading
import LiChat.ChatSend

/-!
# Dates of messages from different clients

kDATE is the clock of the sender's device, so it carries the sender's offset from
UTC.  The receiver sorts by it and cuts its queries by it.
-/

namespace LiChat
open Windows

/-- The clock of the first client is ahead of the clock of the second by less
than the whole seconds that pass from `s` to `t`. -/
def OffsetBelow (f : DateFormatter) (s : Date) (g : DateFormatter) (t : Date) : Prop :=
  f.secondsFromGMT - g.secondsFromGMT < ⌊t⌋ - ⌊s⌋

theorem wallClock_lt_iff {f g : DateFormatter} {s t : Date} :
    f.wallClock s < g.wallClock t ↔ OffsetBelow f s g t := by
  unfold DateFormatter.wallClock OffsetBelow
  omega

/-- Clients at one offset agree on the order of messages a second apart. -/
theorem offsetBelow_of_eq {f g : DateFormatter} {s t : Date}
    (hoffset : f.secondsFromGMT = g.secondsFromGMT) (h : s + 1 ≤ t) : OffsetBelow f s g t := by
  have hfloor : ⌊s⌋ + 1 ≤ ⌊t⌋ := by
    rw [← Int.floor_add_one]
    exact Int.floor_le_floor h
  unfold OffsetBelow
  omega

/-- A message, with the client that sent it and the instant of sending. -/
structure SentMessage where
  client : DateFormatter
  instant : Date
  data : MessageDictionary
  date_eq : data.date = some (client.string instant)
  inYears : client.InYears instant

namespace SentMessage

theorem dateString_eq (m : SentMessage) : m.data.dateString = m.client.string m.instant := by
  rw [MessageDictionary.dateString, m.date_eq, Option.getD_some]

theorem dateString_lt_iff (m n : SentMessage) : m.data.dateString < n.data.dateString ↔
    OffsetBelow m.client m.instant n.client n.instant := by
  rw [dateString_eq, dateString_eq, string_lt_string m.inYears n.inYears, wallClock_lt_iff]

end SentMessage

/-- The three orders that are built on kDATE agree with the order of sending
exactly when the offsets of the clients differ by less than the messages are
apart: the order of the date strings, the order into which `loadMessages` sorts
messages however they arrive, and the filter of the listener. -/
theorem messageDates_order (f g : DateFormatter) (t₁ t₂ : Date) (_ : t₁ + 1 ≤ t₂)
    (hf : f.InYears t₁) (hg : g.InYears t₂) :
    (f.string t₁ < g.string t₂ ↔ OffsetBelow f t₁ g t₂) ∧
    (∀ sent : List SentMessage, (sent.Pairwise fun m n => m.instant + 1 ≤ n.instant) →
      (sent.map SentMessage.data).Nodup →
      ((∀ stored : List MessageDictionary, stored.Perm (sent.map SentMessage.data) →
          sortedArray stored = sent.map SentMessage.data) ↔
        sent.Pairwise fun m n => OffsetBelow m.client m.instant n.client n.instant)) ∧
    (∀ (loadedMessages : List MessageDictionary) (last next : SentMessage) (documentID : String)
      (docs : List MessageDocument), last.instant + 1 ≤ next.instant →
      loadedMessages.getLast? = some last.data → ⟨documentID, next.data⟩ ∈ docs →
      (⟨documentID, next.data⟩ ∈ addedDocuments loadedMessages docs ↔
        OffsetBelow last.client last.instant next.client next.instant)) := by
  refine ⟨?_, ?_, ?_⟩
  · rw [string_lt_string hf hg, wallClock_lt_iff]
  · intro sent _ hnodup
    have hsort := ascending_eq_iff MessageDictionary.dateString hnodup
    rw [List.pairwise_map] at hsort
    simp only [SentMessage.dateString_lt_iff] at hsort
    exact hsort
  · intro loadedMessages last next documentID docs _ hlast hnext
    have hsome : next.data.date.isSome := by rw [next.date_eq, Option.isSome_some]
    have hadded : (⟨documentID, next.data⟩ : MessageDocument) ∈ addedDocuments loadedMessages docs ↔
        last.data.dateString < next.data.dateString := by
      simp only [addedDocuments, isGreaterThan, hasDate, lastMessagesDate, hlast, List.mem_filter,
        decide_eq_true_eq, MessageDocument.dateString]
      exact ⟨fun h => h.2, fun h => ⟨⟨hnext, hsome⟩, h⟩⟩
    rw [hadded, SentMessage.dateString_lt_iff]

/-- A message of a client in London, and one that a client in Seoul sends a
minute later. -/
theorem messageDates_order_london_seoul :
    (dateFormatter 0).string (86400 * 737094) < (dateFormatter 32400).string (86400 * 737094 + 60) ↔
      OffsetBelow (dateFormatter 0) (86400 * 737094) (dateFormatter 32400) (86400 * 737094 + 60) :=
  (messageDates_order (dateFormatter 0) (dateFormatter 32400) (86400 * 737094)
    (86400 * 737094 + 60) (by norm_num) (by decide +kernel) (by decide +kernel)).1

/-- The other way round, the earlier message gets the greater string. -/
theorem messageDates_fails_seoul_london :
    ((86400 * 737094 : Date) + 1 ≤ 86400 * 737094 + 60) ∧
    (dateFormatter 32400).InYears (86400 * 737094) ∧
    (dateFormatter 0).InYears (86400 * 737094 + 60) ∧
    ¬ (dateFormatter 32400).string (86400 * 737094) < (dateFormatter 0).string (86400 * 737094 + 60) := by
  refine ⟨by norm_num, by decide +kernel, by decide +kernel, ?_⟩
  decide +kernel

end LiChat
