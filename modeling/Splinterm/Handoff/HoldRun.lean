import Splinterm.Lib.Run
import Splinterm.Handoff.HoldJournal

/-!
# Resume tickets along every interleaving

The invariant relates the journal to what the mutex guards: a held ticket was issued, its
spent list names every call made for its Window, and while a placeholder of a Window is left,
the first Window of that index has the ticket that was issued to it. From it every entry of
every run is justified.
-/

namespace Splinterm.Handoff

open Core Daemon Lib Hoare List Option

variable {T : Type}

/-! ## The invariant -/

def IssuedTo (journal : List Deed) (window : HeldHandoffWindow) (ticket : IssuedTicket) : Prop :=
  ∃ binding window' ticket', .issued binding window' ticket' ∈ journal ∧ window'.record = window.record ∧
    window'.process = window.process ∧ ticket'.bytes = ticket.bytes ∧
    ticket'.daemonGeneration = ticket.daemonGeneration ∧
    ticket'.clientSnapshot = ticket.clientSnapshot

/-- What the mutex guards, against what was held at first and the journal. -/
structure Live (start : HeldHandoffWindows) (journal : List Deed) (held : HeldHandoffWindows) : Prop where
  deadline : held.expiresAt = start.expiresAt
  placeholders : held.placeholders ⊆ start.placeholders
  pinned : ∀ window ∈ held.windows, ∃ original ∈ start.windows,
    original.record = window.record ∧ original.process = window.process
  /-- Of Windows with one index only the first can have a ticket. -/
  first : held.windows.Pairwise fun a b => a.record.index = b.record.index → b.ticket = none
  issued : ∀ window ∈ held.windows, ∀ ticket, window.ticket = some ticket → IssuedTo journal window ticket
  spent : ∀ window ∈ held.windows, ∀ ticket, window.ticket = some ticket → ∀ call,
    .called call ∈ journal → call.placeholder.window = window.record.index →
    call.placeholder.splintId ∈ ticket.spent
  claimed : ∀ binding window ticket, .issued binding window ticket ∈ journal →
    ∀ p ∈ held.placeholders, p.window = window.record.index →
    ∃ w ∈ held.windows, w.record.index = window.record.index ∧ w.ticket.isSome
  ended : ∀ binding window ticket, .issued binding window ticket ∈ journal → .failed ticket.bytes ∈ journal →
    ∀ p ∈ held.placeholders, p.window ≠ window.record.index

theorem IssuedTo.mono {journal journal' : List Deed} {window : HeldHandoffWindow}
    {ticket : IssuedTicket} (h : IssuedTo journal window ticket)
    (hsub : ∀ d ∈ journal, d ∈ journal') : IssuedTo journal' window ticket := by
  obtain ⟨binding, window', ticket', hissued, hrest⟩ := h
  exact ⟨binding, window', ticket', hsub _ hissued, hrest⟩

theorem issued_unique {journal : List Deed} (h : (tickets journal).Nodup)
    {binding binding' : ContinuationBinding} {window window' : HeldHandoffWindow} {ticket ticket' : IssuedTicket}
    (hissued : .issued binding window ticket ∈ journal) (hissued' : .issued binding' window' ticket' ∈ journal)
    (hbytes : ticket.bytes = ticket'.bytes) : window = window' := by
  have hpairwise := pairwise_filterMap.mp h
  by_contra hne
  have hsymm : Std.Symm fun a a' : Deed => ∀ b, Deed.issue a = some b → ∀ b', Deed.issue a' = some b' →
      b ≠ b' := ⟨fun _ _ hab b hb b' hb' => (hab b' hb' b hb).symm⟩
  exact hpairwise.forall hissued hissued' (fun heq => hne (Deed.issued.inj heq).2.1) _ rfl _ rfl hbytes

namespace Live

variable {start held : HeldHandoffWindows} {journal : List Deed}
  {pre post : List HeldHandoffWindow} {window : HeldHandoffWindow} {ticket : IssuedTicket}

variable (h : Live start journal held) (hwindows : held.windows = pre ++ window :: post) {new : List Deed}

include h hwindows

theorem without : Live start journal (held.without pre window post) := by
  have hsub : (pre ++ post).Sublist held.windows :=
    hwindows ▸ (sublist_cons_self window post).append_left pre
  have hfilter : ∀ p ∈ (held.without pre window post).placeholders,
      p ∈ held.placeholders ∧ p.window ≠ window.record.index := fun p hp =>
    ⟨mem_of_mem_filter hp, of_decide_eq_true (mem_filter.mp hp).2⟩
  exact
    { deadline := h.deadline
      placeholders := fun p hp => h.placeholders (hfilter p hp).1
      pinned := fun w hw => h.pinned w (hsub.subset hw)
      first := h.first.sublist hsub
      issued := fun w hw => h.issued w (hsub.subset hw)
      spent := fun w hw => h.spent w (hsub.subset hw)
      claimed := fun b w t hissued p hp hpw => by
        obtain ⟨hp, hne⟩ := hfilter p hp
        obtain ⟨w', hw', hindex, hsome⟩ := h.claimed b w t hissued p hp hpw
        rw [hwindows, mem_around] at hw'
        rcases hw' with rfl | hw'
        · exact absurd (hpw.trans hindex.symm) hne
        · exact ⟨w', hw', hindex, hsome⟩
      ended := fun b w t hissued hfailed p hp => h.ended b w t hissued hfailed p (hfilter p hp).1 }

/-- A Window whose ticket failed a check is gone with its placeholders. -/
theorem dropped (hnew : ∀ d ∈ new, ∃ ticket, window.ticket = some ticket ∧ d = .failed ticket.bytes)
    (hdistinct : (tickets journal).Nodup) : Live start (journal ++ new) (held.without pre window post) := by
  have hmem : window ∈ held.windows := by simp [hwindows]
  have hwithout := h.without hwindows
  have hearlier {d : Deed} (hd : d ∈ journal ++ new) (hne : ∀ bytes, d ≠ .failed bytes) : d ∈ journal := by
    refine (mem_append.mp hd).resolve_right fun hd => ?_
    obtain ⟨_, -, rfl⟩ := hnew d hd
    exact hne _ rfl
  refine { hwithout with
    issued := fun w hw t ht => (hwithout.issued w hw t ht).mono fun _ => mem_append_left _
    spent := fun w hw t ht call hcall => hwithout.spent w hw t ht call (hearlier hcall (by simp))
    claimed := fun b w t hissued => hwithout.claimed b w t (hearlier hissued (by simp))
    ended := fun b w t hissued hfailed p hp => ?_ }
  have hissued := hearlier hissued (by simp)
  rcases mem_append.mp hfailed with hfailed | hfailed
  · exact hwithout.ended b w t hissued hfailed p hp
  · -- the ticket that fails now was issued to the Window that is dropped, and to no other
    obtain ⟨ticket, hticket, hbytes⟩ := hnew _ hfailed
    obtain ⟨_, w', t', hissued', hrecord, -, hbytes', -⟩ := h.issued window hmem ticket hticket
    obtain rfl := issued_unique hdistinct hissued hissued' ((Deed.failed.inj hbytes).trans hbytes'.symm)
    rw [hrecord]
    exact of_decide_eq_true (mem_filter.mp hp).2

theorem first_of_ticket (hticket : window.ticket = some ticket) : ∀ w ∈ pre, w.record.index ≠ window.record.index := by
  intro w hw hindex
  have hfirst := h.first
  rw [hwindows, pairwise_append] at hfirst
  rw [hfirst.2.2 w hw window mem_cons_self hindex] at hticket
  cases hticket

variable (hpre : ∀ w ∈ pre, w.record.index ≠ window.record.index)

include hpre

theorem others {w : HeldHandoffWindow} (hw : w ∈ pre ++ post) (hsome : w.ticket.isSome) :
    w.record.index ≠ window.record.index := by
  intro hindex
  have hfirst := h.first
  rw [hwindows, pairwise_append, pairwise_cons] at hfirst
  rcases mem_append.mp hw with hw | hw
  · exact hpre w hw hindex
  · rw [hfirst.2.1.1 w hw hindex.symm] at hsome
    cases hsome

/-- The first Window of an index is given a ticket; the entries added are about that Window. -/
theorem ticketed {placeholders : List ControllerPlaceholder}
    (hsub : placeholders ⊆ held.placeholders) (hissued : IssuedTo (journal ++ new) window ticket)
    (hspent : ∀ call, .called call ∈ journal ++ new → call.placeholder.window = window.record.index →
      call.placeholder.splintId ∈ ticket.spent)
    (hcalled : ∀ call, .called call ∈ new → call.placeholder.window = window.record.index)
    (hnew : ∀ b w t, .issued b w t ∈ new → w.record.index = window.record.index ∧ .failed t.bytes ∉ journal)
    (hfailed : ∀ bytes, .failed bytes ∉ new) : Live start (journal ++ new) { held with
      windows := pre ++ { window with ticket := some ticket } :: post, placeholders } := by
  have hmem : window ∈ held.windows := by simp [hwindows]
  have hother : ∀ w ∈ pre ++ post, w ∈ held.windows := fun w hw => by
    rw [hwindows, mem_around]
    exact .inr hw
  refine
    { deadline := h.deadline
      placeholders := fun p hp => h.placeholders (hsub hp)
      pinned := fun w hw => ?_
      first := ?_
      issued := fun w hw t ht => ?_
      spent := fun w hw t ht call hcall hindex => ?_
      claimed := fun b w t hw p hp hpw => ?_
      ended := fun b w t hw hf p hp => ?_ }
  · rcases mem_around.mp hw with rfl | hw
    · exact h.pinned window hmem
    · exact h.pinned w (hother w hw)
  · have hfirst := h.first
    rw [hwindows, pairwise_append, pairwise_cons] at hfirst
    refine pairwise_append.mpr ⟨hfirst.1, pairwise_cons.mpr ⟨hfirst.2.1.1, hfirst.2.1.2⟩, ?_⟩
    intro a ha b hb hindex
    rcases mem_cons.mp hb with rfl | hb
    · exact absurd hindex (hpre a ha)
    · exact hfirst.2.2 a ha b (mem_cons_of_mem _ hb) hindex
  · rcases mem_around.mp hw with rfl | hw
    · obtain rfl := some.inj ht
      exact hissued
    · exact (h.issued w (hother w hw) t ht).mono fun _ => mem_append_left _
  · rcases mem_around.mp hw with rfl | hw
    · obtain rfl := some.inj ht
      exact hspent call hcall hindex
    · rcases mem_append.mp hcall with hcall | hcall
      · exact h.spent w (hother w hw) t ht call hcall hindex
      · exact absurd (hindex.symm.trans (hcalled call hcall)) (h.others hwindows hpre hw (by rw [ht]; rfl))
  · by_cases hindex : w.record.index = window.record.index
    · exact ⟨_, mem_around.mpr (.inl rfl), hindex.symm, rfl⟩
    · have hw := (mem_append.mp hw).resolve_right fun hw => hindex (hnew b w t hw).1
      obtain ⟨w', hw', hindex', hsome⟩ := h.claimed b w t hw p (hsub hp) hpw
      rw [hwindows, mem_around] at hw'
      rcases hw' with rfl | hw'
      · exact absurd hindex'.symm hindex
      · exact ⟨w', mem_around.mpr (.inr hw'), hindex', hsome⟩
  · have hf := (mem_append.mp hf).resolve_right (hfailed _)
    rcases mem_append.mp hw with hw | hw
    · exact h.ended b w t hw hf p (hsub hp)
    · exact absurd hf (hnew b w t hw).2

/-- The first Window of an index without a ticket: nothing was issued for the index while a
placeholder of it is left. -/
theorem unclaimed (hnone : window.ticket = none)
    (hplaceholder : ∃ p ∈ held.placeholders, p.window = window.record.index)
    {b : ContinuationBinding} {w : HeldHandoffWindow} {t : IssuedTicket} (hissued : .issued b w t ∈ journal) :
    w.record.index ≠ window.record.index := by
  intro hindex
  obtain ⟨p, hp, hpw⟩ := hplaceholder
  obtain ⟨w', hw', hindex', hsome⟩ := h.claimed b w t hissued p hp (hpw.trans hindex.symm)
  rw [hwindows, mem_around] at hw'
  rcases hw' with rfl | hw'
  · rw [hnone] at hsome
    cases hsome
  · exact h.others hwindows hpre hw' hsome (hindex'.trans hindex)

theorem issue (binding : ContinuationBinding)
    (huncalled : ∀ call, .called call ∈ journal → call.placeholder.window ≠ window.record.index)
    (hnew : .failed ticket.bytes ∉ journal) :
    Live start (journal ++ [.issued binding { window with ticket := some ticket } ticket])
      { held with windows := pre ++ { window with ticket := some ticket } :: post } := by
  refine h.ticketed hwindows hpre (List.Subset.refl _)
    ⟨_, _, _, mem_append_right _ mem_cons_self, rfl, rfl, rfl, rfl, rfl⟩ ?_ (by simp) ?_ (by simp)
  · intro call hcall hindex
    exact absurd hindex (huncalled call (by simpa using hcall))
  · intro b w t hw
    obtain ⟨-, rfl, rfl⟩ := Deed.issued.inj (mem_singleton.mp hw)
    exact ⟨rfl, hnew⟩

omit hpre

/-- A placeholder is spent; the entries added are calls for it. -/
theorem spending (hticket : window.ticket = some ticket) {before after : List ControllerPlaceholder}
    {placeholder : ControllerPlaceholder} (hplaceholders : held.placeholders = before ++ placeholder :: after)
    (hwindow : placeholder.window = window.record.index)
    (hnew : ∀ d ∈ new, ∃ call, d = .called call ∧ call.placeholder = placeholder) :
    Live start (journal ++ new) (held.spending pre window ticket post before after placeholder.splintId) := by
  have hmem : window ∈ held.windows := by simp [hwindows]
  have hcalled (call : Call) (hcall : .called call ∈ new) : call.placeholder = placeholder := by
    obtain ⟨_, ⟨⟩, heq⟩ := hnew _ hcall
    exact heq
  apply h.ticketed hwindows (h.first_of_ticket hwindows hticket)
  · intro p hp
    rw [hplaceholders, mem_around]
    exact .inr hp
  · exact (h.issued window hmem ticket hticket).mono fun _ => mem_append_left _
  · intro call hcall hindex
    rcases mem_append.mp hcall with hcall | hcall
    · exact mem_append_left _ (h.spent window hmem ticket hticket call hcall hindex)
    · rw [hcalled call hcall]
      exact mem_append_right _ mem_cons_self
  · exact fun call hcall => hcalled call hcall ▸ hwindow
  · intro b w t hw
    obtain ⟨_, ⟨⟩, -⟩ := hnew _ hw
  · intro bytes hbytes
    obtain ⟨_, ⟨⟩, -⟩ := hnew _ hbytes

omit hwindows in
theorem serve : Live start journal { held with
    windows := held.windows.map fun window => { window with continuation := none } } where
  deadline := h.deadline
  placeholders := h.placeholders
  pinned := forall_mem_map.mpr h.pinned
  first := pairwise_map.mpr h.first
  issued := forall_mem_map.mpr h.issued
  spent := forall_mem_map.mpr h.spent
  claimed b w t hw p hp hpw := by
    obtain ⟨w', hw', hrest⟩ := h.claimed b w t hw p hp hpw
    exact ⟨_, mem_map_of_mem hw', hrest⟩
  ended := h.ended

end Live

/-- Every entry is justified by those before it, and the mutex guards what the journal says. -/
structure Inv (start : HeldHandoffWindows) (hold : HandoffWindowHold) (journal : List Deed) : Prop where
  justified : ∀ before deed after, journal = before ++ deed :: after → Justified start before deed
  failed : ∀ bytes, .failed bytes ∈ journal → bytes ∈ tickets journal
  closed : .released ∈ journal → hold.lock = none
  live : ∀ held, hold.lock = some held → Live start journal held

namespace Inv

variable {start held : HeldHandoffWindows} {hold hold' : HandoffWindowHold} {journal : List Deed}
  {deed : Option Deed} {d : Deed} {pre post : List HeldHandoffWindow} {window : HeldHandoffWindow}
  {ticket : IssuedTicket}

variable (h : Inv start hold journal)

include h

/-- The next entry, if the step makes one. -/
theorem next (hjustified : ∀ d, deed = some d → Justified start journal d)
    (hfailed : ∀ bytes, deed = some (.failed bytes) → bytes ∈ tickets journal)
    (hclosed : deed = some .released → hold'.lock = none)
    (hlive : ∀ held', hold'.lock = some held' →
      ∃ held, hold.lock = some held ∧ Live start (journal ++ deed.toList) held') :
    Inv start hold' (journal ++ deed.toList) where
  justified before entry after heq := by
    cases deed with
    | none => exact h.justified before entry after (by simpa using heq)
    | some d =>
      rcases snoc_split heq with ⟨rfl, rfl⟩ | ⟨after', heq⟩
      · exact hjustified _ rfl
      · exact h.justified before entry after' heq
  failed bytes hbytes := by
    rw [tickets, filterMap_append]
    apply mem_append_left
    rcases mem_append.mp hbytes with hbytes | hbytes
    · exact h.failed bytes hbytes
    · exact hfailed bytes (mem_toList.mp hbytes)
  closed hreleased := by
    rcases mem_append.mp hreleased with hreleased | hreleased
    · refine eq_none_iff_forall_ne_some.mpr fun held' hheld' => ?_
      obtain ⟨held, hheld, -⟩ := hlive held' hheld'
      rw [h.closed hreleased] at hheld
      cases hheld
    · exact hclosed (mem_toList.mp hreleased)
  live held' hheld' := (hlive held' hheld').elim fun _ h => h.2

theorem called_issued {call : Call} (hcall : .called call ∈ journal) :
    ∃ binding window ticket, .issued binding window ticket ∈ journal ∧ window.record.index = call.placeholder.window := by
  obtain ⟨before, after, rfl⟩ := append_of_mem hcall
  have hrestores : Restores start before call := h.justified before (.called call) after rfl
  obtain ⟨binding, window, ticket, hissued, hauthentic⟩ := hrestores.ticket
  exact ⟨binding, window, ticket, mem_append_left _ hissued, hauthentic.index⟩

theorem not_released (hlock : hold.lock = some held) : .released ∉ journal := by
  intro hmem
  rw [h.closed hmem] at hlock
  cases hlock

/-- A rightful call is one the journal justifies. -/
theorem restores {placeholder : ControllerPlaceholder} {call : Call} (hlock : hold.lock = some held)
    (hwindows : held.windows = pre ++ window :: post) (hticket : window.ticket = some ticket) (hmem : placeholder ∈ held.placeholders)
    (hwindow : placeholder.window = window.record.index) (hfresh : placeholder.splintId ∉ ticket.spent)
    (hcall : Rightful held window ticket placeholder call) : Restores start journal call := by
  have hlive := h.live held hlock
  have hheld : window ∈ held.windows := by simp [hwindows]
  obtain ⟨b, w, t, hissued, hrecord, hprocess, hbytes, hgeneration, hsnapshot⟩ :=
    hlive.issued window hheld ticket hticket
  have hauthentic := hcall.authentic
  obtain rfl := hcall.given
  exact
    { placeholder := hlive.placeholders hmem
      first := fun earlier hearlier hsame hsplint => by
        have hspent := hlive.spent window hheld ticket hticket earlier hearlier (hsame.trans hwindow)
        exact hfresh (hsplint ▸ hspent)
      early := hlive.deadline ▸ hcall.early
      ticket := ⟨b, w, t, hissued,
        { index := hrecord ▸ hauthentic.index
          carried := hbytes ▸ hauthentic.carried
          generation := hgeneration ▸ hauthentic.generation
          pid := hrecord ▸ hauthentic.pid
          startTime := hrecord ▸ hauthentic.startTime
          live := by rw [hrecord, hprocess]; exact hauthentic.live
          snapshot := by rw [hrecord, hsnapshot]; exact hauthentic.snapshot }⟩
      splint := hcall.splint
      named := hcall.named
      live := hcall.live
      notFailed := fun b w t hissued hfailed => (hlive.ended b w t hissued hfailed call.placeholder hmem).symm
      notReleased := h.not_released hlock }

theorem step (hmove : Moves hold deed hold')
    (hdistinct : (tickets (journal ++ deed.toList)).Nodup) : Inv start hold' (journal ++ deed.toList) := by
  rw [tickets, filterMap_append] at hdistinct
  cases hmove with
  | idle hlock =>
    refine h.next (by simp) (by simp) (by simp) fun held hheld => ⟨held, hlock ▸ hheld, ?_⟩
    simpa using h.live held (hlock ▸ hheld)
  | close hlock =>
    refine h.next ?_ (by simp) (fun _ => hlock) (by simp [hlock])
    rintro _ ⟨⟩
    trivial
  | @serve _ held hheld hlock =>
    refine h.next (by simp) (by simp) (by simp) fun held' hheld' => ⟨held, hheld, ?_⟩
    obtain rfl := some.inj (hlock.symm.trans hheld')
    simpa using (h.live held hheld).serve
  | @drop _ held pre window post _ hheld hwindows hdeed hafter =>
    have hlive := h.live held hheld
    refine h.next (fun d hd => ?_) (fun bytes hbytes => ?_) (fun hreleased => ?_)
      fun held' hheld' => ⟨held, hheld, ?_⟩
    · obtain ⟨_, -, rfl⟩ := hdeed d hd
      trivial
    · obtain ⟨ticket, hticket, heq⟩ := hdeed _ hbytes
      obtain ⟨_, w, t, hissued, -, -, hsame, -⟩ := hlive.issued window (by simp [hwindows]) ticket hticket
      exact mem_filterMap.mpr ⟨_, hissued, congrArg some (hsame.trans (Deed.failed.inj heq).symm)⟩
    · obtain ⟨_, -, ⟨⟩⟩ := hdeed _ hreleased
    · obtain rfl := hafter held' hheld'
      exact hlive.dropped hwindows (fun d hd => hdeed d (mem_toList.mp hd)) (nodup_append.mp hdistinct).1
  | @issue _ held pre binding window post ticket hheld hwindows hpre hnone hplaceholder hcarries hafter =>
    have hlive := h.live held hheld
    have hunclaimed : ∀ b w t, .issued b w t ∈ journal → w.record.index ≠ window.record.index :=
      fun b w t => hlive.unclaimed hwindows hpre hnone hplaceholder
    refine h.next ?_ (by simp) (by simp) fun held' hheld' => ⟨held, hheld, ?_⟩
    · rintro _ ⟨⟩
      exact ⟨hlive.pinned window (by simp [hwindows]), hunclaimed, hcarries⟩
    · obtain rfl := some.inj (hafter.symm.trans hheld')
      refine hlive.issue hwindows hpre binding (fun call hcall heq => ?_) fun hfailed => ?_
      · obtain ⟨b, w, t, hissued, hindex⟩ := h.called_issued hcall
        exact hunclaimed b w t hissued (hindex.trans heq)
      · exact disjoint_of_nodup_append hdistinct (h.failed _ hfailed) mem_cons_self
  | @spend _ held pre window ticket post before placeholder after _ hheld hwindows hticket
      hplaceholders hwindow hfresh hdeed hafter =>
    have hmem : placeholder ∈ held.placeholders := by simp [hplaceholders]
    refine h.next (fun d hd => ?_) (fun bytes hbytes => ?_) (fun hreleased => ?_)
      fun held' hheld' => ⟨held, hheld, ?_⟩
    · obtain ⟨call, rfl, hcall⟩ := hdeed d hd
      exact h.restores hheld hwindows hticket hmem hwindow hfresh hcall
    · obtain ⟨_, ⟨⟩, -⟩ := hdeed _ hbytes
    · obtain ⟨_, ⟨⟩, -⟩ := hdeed _ hreleased
    · have hspent : Live start (journal ++ deed.toList) _ :=
        (h.live held hheld).spending hwindows hticket hplaceholders hwindow fun d hd => by
          obtain ⟨call, rfl, hcall⟩ := hdeed d (mem_toList.mp hd)
          exact ⟨call, rfl, hcall.given⟩
      rcases hafter held' hheld' with rfl | rfl
      · exact hspent
      · have hwithout := hspent.without (rfl : _ = pre ++ { window with ticket := some { ticket with
          spent := ticket.spent ++ [placeholder.splintId] } } :: post)
        exact hwithout

end Inv

/-! ## Runs -/

theorem journal_sublist (session : Session) (inputs : List (Input T)) :
    session.journal.Sublist (inputs.foldl Session.step session).journal := by
  induction inputs generalizing session with
  | nil => exact .refl _
  | cons input inputs ih => exact (sublist_append_left _ _).trans (ih (session.step input))

theorem Inv.run {start : HeldHandoffWindows} {session : Session} (inputs : List (Input T))
    (h : Inv start session.hold session.journal)
    (hdistinct : (tickets (inputs.foldl Session.step session).journal).Nodup) :
    Inv start (inputs.foldl Session.step session).hold (inputs.foldl Session.step session).journal := by
  induction inputs generalizing session with
  | nil => exact h
  | cons input inputs ih =>
    refine ih (h.step (moves_step session.hold input) ?_) hdistinct
    exact hdistinct.sublist ((journal_sublist (session.step input) inputs).filterMap _)

/-- What is held at first; a hold of nothing has no Windows. -/
def HandoffWindowHold.start (hold : HandoffWindowHold) : HeldHandoffWindows :=
  hold.held.getD ⟨[], [], 0⟩

theorem keepWindow_unticketed {system : Announcing} {windows : List CandidateWindowStage}
    {kept : List HeldHandoffWindow × WindowAnnouncement} (h : ∀ w ∈ kept.1, w.ticket = none) :
    ∀ w ∈ (windows.foldl (keepWindow system) kept).1, w.ticket = none := by
  induction windows generalizing kept with
  | nil => exact h
  | cons window windows ih =>
    refine ih ?_
    unfold keepWindow
    split_ifs
    · exact h
    · exact forall_mem_append.mpr ⟨h, forall_mem_singleton.mpr rfl⟩
    · exact h

theorem announceAndHold_unticketed (system : Announcing) (windows : List CandidateWindowStage)
    (splints : List ManifestSplint) (duration : Nat) :
    ∀ w ∈ (announceAndHold system windows splints duration).1.start.windows, w.ticket = none := by
  unfold announceAndHold
  split
  · simp [HandoffWindowHold.start]
  · dsimp only
    split
    · exact keepWindow_unticketed (by simp)
    · simp [HandoffWindowHold.start]

theorem inv_start {hold : HandoffWindowHold} (h : ∀ w ∈ hold.start.windows, w.ticket = none) :
    Inv hold.start hold [] := by
  refine ⟨fun before deed after heq => ?_, by simp, by simp, fun held hlock => ?_⟩
  · exact absurd (congrArg List.length heq) (by simp)
  · have hheld : hold.start = held := by rw [HandoffWindowHold.start, (lock_eq_some.mp hlock).2, getD_some]
    rw [hheld] at h ⊢
    have hnone : ∀ w ∈ held.windows, ∀ ticket, w.ticket ≠ some ticket := fun w hw ticket heq => by
      rw [h w hw] at heq
      cases heq
    exact
      { deadline := rfl
        placeholders := List.Subset.refl _
        pinned := fun w hw => ⟨w, hw, rfl, rfl⟩
        first := pairwise_of_forall_mem_list fun _ _ b hb _ => h b hb
        issued := fun w hw ticket heq => absurd heq (hnone w hw ticket)
        spent := fun w hw ticket heq => absurd heq (hnone w hw ticket)
        claimed := by simp
        ended := by simp }

/-- In every run from what announcing holds, in which no ticket is drawn twice, each entry of
the journal is justified by those before it: `restore` is called at most once for a placeholder,
before the deadline, for a presentation that carries the ticket of its Window and comes from
its pinned process; a Window is issued at most one ticket; and a failed check or a release
ends what it ended for good. -/
theorem tickets_restore_once (system : Announcing) (windows : List CandidateWindowStage)
    (splints : List ManifestSplint) (duration : Nat) (inputs : List (Input T))
    (hdistinct : (tickets (run (announceAndHold system windows splints duration).1 inputs).journal).Nodup) :
    ∀ before deed after, (run (announceAndHold system windows splints duration).1 inputs).journal =
        before ++ deed :: after →
      Justified (announceAndHold system windows splints duration).1.start before deed := by
  have hstart := inv_start (announceAndHold_unticketed system windows splints duration)
  exact (hstart.run inputs hdistinct).justified

/-! A Window that held two controllers: one is restored, a replay is refused, and the ticket ends
when another process presents it. -/

def heldSplint (id : Nat) (connection : UInt64) : ManifestSplint :=
  ⟨⟨1⟩, ⟨2⟩, ⟨id⟩, 4, ⟨100, 100, 100, 0⟩, ⟨80, 24, 0, 0⟩, none, 1, 1, .running, .descriptor 0,
    .notPresent, .heldBy 0 connection, .dropped⟩

def carriedWindow : CandidateWindowStage := ⟨⟨0, 200, 9, 1, 1, [5, 6]⟩, 30, 31, true⟩

def announced : HandoffWindowHold :=
  (announceAndHold ⟨true, fun _ => some false, fun _ => true, 0⟩ [carriedWindow] [heldSplint 3 5, heldSplint 4 6] 30).1

def pinnedChecks : ProcessChecks := ⟨fun _ => some (8, 8), fun _ _ => some .live⟩

def carriedTicket : TicketBytes := .replicate 32 7

def presenting (pid : UInt32) (id : Nat) : Input Unit :=
  .present ⟨carriedTicket, pid, some 9, ⟨id⟩, 4, some 4, 2⟩ 10 pinnedChecks fun _ => .lease ()

def resumption : List (Input Unit) :=
  [.serve,
    .claim ⟨0, .ok ⟨2, 200, 1000⟩, ⟨2, some (8, 8), 1000⟩, 5, pinnedChecks, some carriedTicket,
      fun _ => true⟩,
    presenting 200 3, presenting 200 3, presenting 201 4, presenting 200 4, .release]

def Deed.restored : Deed → Option ControllerPlaceholder
  | called call => some call.placeholder
  | _ => none

theorem resumption_restores_once : (tickets (run announced resumption).journal).Nodup ∧
      (run announced resumption).journal.filterMap Deed.restored = [⟨⟨3⟩, 4, 0, 5⟩] ∧
      ∀ before deed after, (run announced resumption).journal = before ++ deed :: after →
        Justified announced.start before deed := by
  have hdistinct : (tickets (run announced resumption).journal).Nodup := by decide +kernel
  exact ⟨hdistinct, by decide +kernel, tickets_restore_once _ _ _ _ _ hdistinct⟩

end Splinterm.Handoff
