import LiChat.RecentCreation

/-!
# Creating Recents alone

A call of `createRecent` that nothing interferes with.
-/

namespace LiChat

namespace Operation

theorem run_createRecent_of_owners (currentId : Uid) (date : String) {c : CreateRecent}
    (hnodup : c.members.Nodup) {s : Recents}
    (howners : ∀ u ∈ c.members, ∃ r ∈ s.inRoom c.chatRoomId, r.userId = some u) :
    (createRecent currentId date c).run s = s := by
  have hnobody : removeOwners c.members (s.inRoom c.chatRoomId) = [] := by
    rw [List.eq_nil_iff_forall_not_mem]
    intro u hu
    obtain ⟨hmember, hnone⟩ := ((mem_removeOwners hnodup _).2 u).mp hu
    obtain ⟨r, hr, huser⟩ := howners u hmember
    exact hnone r hr huser
  simp [run, callback, chatRoomId, LiChat.createRecent, hnobody]

/-- For every collection in which no user has two Recents of the room, every list of
members without duplicates, and users or an avatar as the callers give them: `createRecent`
run alone leaves every member with exactly one Recent of the room and every document as it
was; its new documents are Recents of the room, of members who owned none, with the counter
0, the given members and their own ids; and run again it adds nothing. -/
theorem createRecent_completes (currentId : Uid) (date : String) (c : CreateRecent)
    (hc : c.Complete) (hnodup : c.members.Nodup) (s : Recents)
    (hone : ∀ r ∈ s.inRoom c.chatRoomId, ∀ r' ∈ s.inRoom c.chatRoomId, ∀ u,
      r.userId = some u → r'.userId = some u → r = r') :
    (∀ u ∈ c.members, ∃! r, r ∈ ((createRecent currentId date c).run s).inRoom c.chatRoomId ∧
      r.userId = some u) ∧
    (∀ e ∈ s.docs, e ∈ ((createRecent currentId date c).run s).docs) ∧
    (∀ e ∈ ((createRecent currentId date c).run s).docs, e ∉ s.docs →
      (e.2.chatRoomId = c.chatRoomId ∧ ∃ u ∈ c.members, e.2.userId = some u ∧
        ∀ r ∈ s.inRoom c.chatRoomId, r.userId ≠ some u) ∧
      e.2.counter = 0 ∧ e.2.members = c.members ∧ e.2.recentId = e.1) ∧
    ∀ later, (createRecent currentId later c).run ((createRecent currentId date c).run s) =
      (createRecent currentId date c).run s := by
  have hexists := fun u hu => existsUnique_run_createRecent currentId date hc hnodup hone (u := u) hu
  obtain ⟨users, created, hsublist, -, hall, hcreated⟩ := all_run_createRecent currentId date c s
  refine ⟨hexists, fun e he => ?_, fun e he hnew => ?_, fun later => ?_⟩
  · have hid := s.recentId_eq e he
    have hold : e.2 ∈ ((createRecent currentId date c).run s).all := by
      rw [hall]
      exact List.mem_append_left _ (List.mem_map_of_mem he)
    have hdoc := Recents.mem_all.mp hold
    rwa [hid] at hdoc
  · have hid := ((createRecent currentId date c).run s).recentId_eq e he
    have hdoc : e.2 ∈ s.all ++ created := hall ▸ List.mem_map_of_mem he
    rcases List.mem_append.mp hdoc with hold | hnew'
    · have hold := Recents.mem_all.mp hold
      rw [hid] at hold
      exact absurd hold hnew
    · obtain ⟨u, hmem, hu⟩ := Rows.exists_of_forall₂ hcreated hnew'
      obtain ⟨hmember, hnone⟩ := ((mem_removeOwners hnodup _).2 u).mp (hsublist.subset hmem)
      exact ⟨⟨hu.chatRoomId, u, hmember, hu.userId, hnone⟩, hu.counter, hu.members, hid⟩
  · refine run_createRecent_of_owners currentId later hnodup fun u hu => ?_
    obtain ⟨r, ⟨hr, huser⟩, -⟩ := hexists u hu
    exact ⟨r, hr, huser⟩

def annsRecent : Recents :=
  Recents.empty.apply (.setData (fun recentId =>
    { recentId := recentId
      userId := some "ann"
      chatRoomId := "annbea"
      members := ["ann", "bea"]
      membersToPush := ["ann"]
      withUserFullName := "Bea"
      withUserUserID := some "bea"
      lastMessage := "hi"
      counter := 3
      date := "20190204120000"
      type := .kPRIVATE
      avatar := "" }) fun _ => rfl)

/-- Bea gets the one new document, and Ann's stays. -/
theorem createRecent_completes_private_chat :
    let s := (createRecent "ann" "20190205120000" (startPrivateChat ann bea)).run annsRecent
    (∃! r, r ∈ s.inRoom "annbea" ∧ r.userId = some "bea") ∧ (∀ e ∈ annsRecent.docs, e ∈ s.docs) ∧
      ∀ e ∈ s.docs, e ∉ annsRecent.docs → e.2.userId = some "bea" := by
  obtain ⟨hexists, hkept, hnew, -⟩ := createRecent_completes "ann" "20190205120000"
    (startPrivateChat ann bea) ⟨[ann, bea], rfl, List.cons_ne_nil _ _⟩ (by decide) annsRecent
    (by decide)
  refine ⟨hexists "bea" (by decide), hkept, fun e he he' => ?_⟩
  obtain ⟨⟨-, u, hu, huser, hnone⟩, -⟩ := hnew e he he'
  rcases List.mem_pair.mp hu with rfl | rfl
  · exact absurd rfl (hnone _ (List.mem_cons_self))
  · exact huser

end Operation

end LiChat
