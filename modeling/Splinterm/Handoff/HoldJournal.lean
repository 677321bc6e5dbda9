import Splinterm.Handoff.Hold

/-!
# The journal of a hold

A run of the hold keeps a journal: tickets issued, calls of `restore`, presentations that
failed the generation or the process check, and releases. `Justified` says what an entry has
to rest on, given the entries before it. `Moves` is what one operation can do to what the
mutex guards together with the entry it makes; every operation makes such a move.
-/

namespace Splinterm.Handoff

open Core Daemon Lib Hoare Option

variable {T : Type}

/-! ## Tickets -/

theorem foldl_or_eq_zero {pairs : List (UInt8 × UInt8)} {d : UInt8} :
    pairs.foldl (fun d pair => d ||| (pair.1 ^^^ pair.2)) d = 0 ↔ d = 0 ∧ ∀ pair ∈ pairs, pair.1 = pair.2 := by
  induction pairs generalizing d with
  | nil => simp
  | cons pair pairs ih =>
    rw [List.foldl_cons, ih, UInt8.or_eq_zero_iff, UInt8.xor_eq_zero_iff, List.forall_mem_cons, and_assoc]

theorem eq_of_sameTicket {left right : TicketBytes} (h : sameTicket left right = true) : left = right := by
  rw [sameTicket, decide_eq_true_eq, foldl_or_eq_zero] at h
  rw [← Vector.toList_inj, ← List.forall₂_eq_eq_eq, List.forall₂_iff_zip]
  exact ⟨by simp, fun hpair => h.2 _ hpair⟩

/-! ## The journal -/

/-- A call of `restore`, with the presentation that led to it. -/
structure Call where
  placeholder : ControllerPlaceholder
  presentation : TicketPresentation
  now : Instant
  checks : ProcessChecks

inductive Deed where
  | issued (binding : ContinuationBinding) (window : HeldHandoffWindow) (ticket : IssuedTicket)
  | called (call : Call)
  | failed (ticket : TicketBytes)
  | released

inductive Input (T : Type) where
  | claim (claim : Claim)
  | present (presentation : TicketPresentation) (now : Instant) (checks : ProcessChecks)
      (restore : ControllerPlaceholder → Restore T)
  | refuse (index : UInt8)
  | serve
  | release

/-- What a redemption adds to the journal. -/
def Redeemed.deed (redeemed : Redeemed T) (presentation : TicketPresentation) (now : Instant)
    (checks : ProcessChecks) : Option Deed :=
  match redeemed.called, redeemed.answer with
  | some placeholder, _ => some (.called ⟨placeholder, presentation, now, checks⟩)
  | none, some (.error .expired) => some .released
  | none, some (.error .generation) => some (.failed presentation.ticket)
  | none, some (.error (.binding _)) => some (.failed presentation.ticket)
  | none, _ => none

def Claimed.deed (claimed : Claimed) (binding : ContinuationBinding) : Option Deed :=
  claimed.issued.bind fun window => window.ticket.map fun ticket => .issued binding window ticket

def step (hold : HandoffWindowHold) : Input T → HandoffWindowHold × Option Deed
  | .claim claim =>
    let claimed := completeClaim hold claim
    (claimed.hold, claimed.deed claim.binding)
  | .present presentation now checks restore =>
    let redeemed := redeem checks presentation now restore hold
    (redeemed.hold, redeemed.deed presentation now checks)
  | .refuse index => (refuseWindow hold index, none)
  | .serve => (serveContinuations hold, none)
  | .release => (release hold, some .released)

/-- A hold with the journal of what was done to it. -/
structure Session where
  hold : HandoffWindowHold
  journal : List Deed := []

def Session.step (session : Session) (input : Input T) : Session :=
  let (hold, deed) := Handoff.step session.hold input
  ⟨hold, session.journal ++ deed.toList⟩

def run (hold : HandoffWindowHold) (inputs : List (Input T)) : Session :=
  inputs.foldl Session.step { hold }

def Deed.issue : Deed → Option TicketBytes
  | issued _ _ ticket => some ticket.bytes
  | _ => none

def tickets (journal : List Deed) : List TicketBytes := journal.filterMap Deed.issue

/-! ## What justifies an entry -/

/-- The presentation carries the ticket of the Window and comes from its pinned process,
running the snapshot the ticket is bound to, in the same generation. -/
structure Authentic (window : HeldHandoffWindow) (ticket : IssuedTicket) (call : Call) : Prop where
  index : window.record.index = call.placeholder.window
  carried : call.presentation.ticket = ticket.bytes
  generation : call.presentation.daemonGeneration = ticket.daemonGeneration
  pid : call.presentation.claimantPid = window.record.pid
  startTime : call.presentation.claimantStartTime = some window.record.startTime
  live : call.checks.inspectWindowProcess window.process window.record = some .live
  snapshot : call.checks.processExecutable window.record.pid = some ticket.clientSnapshot

/-- What a call of `restore` rests on; `start` is what was held at first. -/
structure Restores (start : HeldHandoffWindows) (before : List Deed) (call : Call) : Prop where
  placeholder : call.placeholder ∈ start.placeholders
  first : ∀ earlier, .called earlier ∈ before → earlier.placeholder.window = call.placeholder.window →
    earlier.placeholder.splintId ≠ call.placeholder.splintId
  early : call.now < start.expiresAt
  ticket : ∃ binding window ticket, .issued binding window ticket ∈ before ∧ Authentic window ticket call
  splint : call.presentation.splintId = call.placeholder.splintId
  named : call.presentation.incarnation = call.placeholder.incarnation
  live : call.presentation.liveIncarnation = some call.placeholder.incarnation
  notFailed : ∀ binding window ticket, .issued binding window ticket ∈ before → .failed ticket.bytes ∈ before →
    window.record.index ≠ call.placeholder.window
  notReleased : .released ∉ before

/-- What an issue rests on: a Window held at first, which was issued no ticket before. The ticket carries what the
claim was checked against. -/
structure Issues (start : HeldHandoffWindows) (before : List Deed) (binding : ContinuationBinding)
    (window : HeldHandoffWindow) (ticket : IssuedTicket) : Prop where
  pinned : ∃ held ∈ start.windows, held.record = window.record ∧ held.process = window.process
  first : ∀ binding earlier ticket, .issued binding earlier ticket ∈ before → earlier.record.index ≠ window.record.index
  carries : ticket.daemonGeneration = binding.daemonGeneration ∧ some ticket.clientSnapshot = binding.clientSnapshot

def Justified (start : HeldHandoffWindows) (before : List Deed) : Deed → Prop
  | .issued binding window ticket => Issues start before binding window ticket
  | .called call => Restores start before call
  | .failed _ => True
  | .released => True

/-! ## What a step can do -/

/-- The Windows and placeholders left when one Window is dropped. -/
def HeldHandoffWindows.without (held : HeldHandoffWindows) (pre : List HeldHandoffWindow)
    (window : HeldHandoffWindow) (post : List HeldHandoffWindow) : HeldHandoffWindows :=
  { held with
    windows := pre ++ post
    placeholders := held.placeholders.filter fun placeholder => placeholder.window ≠ window.record.index }

/-- The hold after a placeholder of a Window was spent. -/
def HeldHandoffWindows.spending (held : HeldHandoffWindows) (pre : List HeldHandoffWindow)
    (window : HeldHandoffWindow) (ticket : IssuedTicket) (post : List HeldHandoffWindow)
    (before after : List ControllerPlaceholder) (splintId : SplintId) : HeldHandoffWindows :=
  { held with
    windows := pre ++ { window with
      ticket := some { ticket with spent := ticket.spent ++ [splintId] } } :: post
    placeholders := before ++ after }

/-- A call made for a placeholder that was just spent. -/
structure Rightful (held : HeldHandoffWindows) (window : HeldHandoffWindow) (ticket : IssuedTicket)
    (placeholder : ControllerPlaceholder) (call : Call) : Prop where
  given : call.placeholder = placeholder
  early : call.now < held.expiresAt
  authentic : Authentic window ticket call
  splint : call.presentation.splintId = placeholder.splintId
  named : call.presentation.incarnation = placeholder.incarnation
  live : call.presentation.liveIncarnation = some placeholder.incarnation

/-- What a step does to what the mutex guards, and what it enters in the journal. A mutex that
guards nothing afterwards, or is poisoned, has `lock` none. -/
inductive Moves (hold : HandoffWindowHold) : Option Deed → HandoffWindowHold → Prop
  | idle {hold'} (h : hold'.lock = hold.lock) : Moves hold none hold'
  | close {hold'} (h : hold'.lock = none) : Moves hold (some .released) hold'
  | serve {hold' held} (hheld : hold.lock = some held)
      (h : hold'.lock = some { held with
        windows := held.windows.map fun window => { window with continuation := none } }) :
      Moves hold none hold'
  | drop {hold' held pre window post deed} (hheld : hold.lock = some held)
      (hwindows : held.windows = pre ++ window :: post)
      (hdeed : ∀ d, deed = some d → ∃ ticket, window.ticket = some ticket ∧ d = .failed ticket.bytes)
      (h : ∀ held', hold'.lock = some held' → held' = held.without pre window post) :
      Moves hold deed hold'
  | issue {hold' held pre binding window post ticket} (hheld : hold.lock = some held)
      (hwindows : held.windows = pre ++ window :: post)
      (hpre : ∀ w ∈ pre, w.record.index ≠ window.record.index) (hnone : window.ticket = none)
      (hplaceholder : ∃ p ∈ held.placeholders, p.window = window.record.index)
      (hcarries : ticket.daemonGeneration = binding.daemonGeneration ∧
        some ticket.clientSnapshot = binding.clientSnapshot)
      (h : hold'.lock = some { held with
        windows := pre ++ { window with ticket := some ticket } :: post }) :
      Moves hold (some (.issued binding { window with ticket := some ticket } ticket)) hold'
  | spend {hold' held pre window ticket post before placeholder after deed}
      (hheld : hold.lock = some held) (hwindows : held.windows = pre ++ window :: post)
      (hticket : window.ticket = some ticket)
      (hplaceholders : held.placeholders = before ++ placeholder :: after)
      (hwindow : placeholder.window = window.record.index)
      (hfresh : placeholder.splintId ∉ ticket.spent)
      (hdeed : ∀ d, deed = some d → ∃ call, d = .called call ∧ Rightful held window ticket placeholder call)
      (h : ∀ held', hold'.lock = some held' →
        let spent := held.spending pre window ticket post before after placeholder.splintId
        held' = spent ∨ held' = spent.without pre window post) :
      Moves hold deed hold'

variable {hold : HandoffWindowHold} {held : HeldHandoffWindows}

theorem lock_eq_some : hold.lock = some held ↔ hold.poisoned = false ∧ hold.held = some held := by
  cases hpoisoned : hold.poisoned <;> simp [HandoffWindowHold.lock, hpoisoned]

variable {pre post : List HeldHandoffWindow} {window : HeldHandoffWindow}

theorem lock_dropWindow {held' : HeldHandoffWindows} (h : (dropWindow hold held pre window post).lock = some held') :
    held' = held.without pre window post := by
  unfold dropWindow at h
  split at h
  · simp [lock_eq_some] at h
  · exact (some.inj (lock_eq_some.mp h).2).symm

theorem moves_refuseWindow (hold : HandoffWindowHold) (index : UInt8) : Moves hold none (refuseWindow hold index) := by
  unfold refuseWindow
  cases hlock : hold.lock with
  | none => exact .idle rfl
  | some held =>
    dsimp only
    cases hposition : held.position index with
    | none => exact .idle rfl
    | some found =>
      obtain ⟨hwindows, -, -⟩ := splitFirst_eq_some hposition
      exact .drop hlock hwindows (by simp) fun _ => lock_dropWindow

theorem moves_release (hold : HandoffWindowHold) : Moves hold (some .released) (release hold) := by
  refine .close ?_
  cases hpoisoned : hold.poisoned <;> simp [HandoffWindowHold.lock, release, hpoisoned]

theorem moves_serveContinuations (hold : HandoffWindowHold) : Moves hold none (serveContinuations hold) := by
  unfold serveContinuations
  cases hlock : hold.lock with
  | none => exact .idle rfl
  | some held =>
    refine .serve hlock (lock_eq_some.mpr ⟨?_, rfl⟩)
    exact (lock_eq_some.mp hlock).1

variable {ticket : IssuedTicket}

theorem issue_eq_ok {claim : Claim} (h : claim.issue held window = .ok ticket) :
    (∃ p ∈ held.placeholders, p.window = claim.index) ∧ ticket.daemonGeneration = claim.binding.daemonGeneration ∧
      some ticket.clientSnapshot = claim.binding.clientSnapshot := by
  simp only [Claim.issue, bind_eq_ok] at h
  obtain ⟨_, -, _, -, _, -, _, -, _, hsnapshot, _, -, _, hheld, _, -, _, -, ⟨⟩⟩ := h
  rw [rejectIf_eq_ok, not_not, List.any_eq_true] at hheld
  obtain ⟨p, hp, hindex⟩ := hheld
  refine ⟨⟨p, hp, of_decide_eq_true hindex⟩, rfl, ?_⟩
  cases hbinding : claim.binding.clientSnapshot with
  | none =>
    rw [hbinding] at hsnapshot
    cases hsnapshot
  | some _ =>
    rw [hbinding] at hsnapshot
    cases hsnapshot
    rfl

theorem moves_completeClaim (hold : HandoffWindowHold) (claim : Claim) :
    Moves hold ((completeClaim hold claim).deed claim.binding) (completeClaim hold claim).hold := by
  unfold completeClaim
  cases hlock : hold.lock with
  | none => exact .idle rfl
  | some held =>
    dsimp only
    cases hposition : held.position claim.index with
    | none => exact .idle rfl
    | some found =>
      obtain ⟨pre, window, post⟩ := found
      obtain ⟨hwindows, hindex, hpre⟩ := splitFirst_eq_some hposition
      have hindex : window.record.index = claim.index := of_decide_eq_true hindex
      cases hticket : window.ticket with
      | some ticket =>
        simp only [hticket, isSome_some, if_true]
        exact .idle rfl
      | none =>
        simp only [hticket, isSome_none, Bool.false_eq_true, if_false]
        cases hissue : claim.issue held window with
        | error refusal => exact .drop hlock hwindows nofun fun _ => lock_dropWindow
        | ok ticket =>
          obtain ⟨⟨p, hp, hpindex⟩, hcarries⟩ := issue_eq_ok hissue
          refine .issue hlock hwindows (fun w hw => ?_) hticket ⟨p, hp, hpindex.trans hindex.symm⟩ hcarries
            (lock_eq_some.mpr ⟨(lock_eq_some.mp hlock).1, rfl⟩)
          rw [hindex]
          exact of_decide_eq_false (hpre w hw)

variable {checks : ProcessChecks}

theorem verifyWindowProcess_eq_ok {pid : UInt32} {snapshot : UInt64 × UInt64}
    (h : verifyWindowProcess checks window pid snapshot = .ok ()) : pid = window.record.pid ∧
      checks.inspectWindowProcess window.process window.record = some .live ∧
      checks.processExecutable pid = some snapshot := by
  obtain ⟨_, hpid, h⟩ := bind_eq_ok.mp h
  rw [rejectIf_eq_ok, not_not] at hpid
  cases hinspect : checks.inspectWindowProcess window.process window.record with
  | none => simp [hinspect] at h
  | some state =>
    cases state with
    | exited => simp [hinspect] at h
    | live =>
      simp only [hinspect, rejectIf_eq_ok, ne_eq, not_not] at h
      exact ⟨hpid, rfl, h⟩

/-- The refusals of the generation and process checks. -/
theorem bound_eq_error {presentation : TicketPresentation} {refusal : TicketRefusal}
    (h : presentation.bound checks window ticket = .error refusal) :
    refusal = .generation ∨ ∃ mismatch, refusal = .binding mismatch := by
  unfold TicketPresentation.bound at h
  by_cases hgeneration : ticket.daemonGeneration = presentation.daemonGeneration
  · by_cases hstart : presentation.claimantStartTime = some window.record.startTime
    · cases hverify : verifyWindowProcess checks window presentation.claimantPid
          ticket.clientSnapshot with
      | ok u => simp [rejectIf, hgeneration, hstart, hverify, Except.mapError, bind, Except.bind] at h
      | error mismatch =>
        simp [rejectIf, hgeneration, hstart, hverify, Except.mapError, bind, Except.bind] at h
        exact .inr ⟨mismatch, h.symm⟩
    · simp [rejectIf, hgeneration, hstart, bind, Except.bind] at h
      exact .inr ⟨.process, h.symm⟩
  · simp [rejectIf, hgeneration, bind, Except.bind] at h
    exact .inl h.symm

theorem lock_settle {held' : HeldHandoffWindows} (h : (settle hold held pre window post).lock = some held') :
    held' = held ∨ held' = held.without pre window post := by
  unfold settle at h
  split at h
  · exact .inl (some.inj (lock_eq_some.mp h).2).symm
  · exact .inr (lock_dropWindow h)

theorem moves_miss (hlock : hold.lock = some held) (hwindows : held.windows = pre ++ window :: post) :
    Moves hold none (settle hold held pre window post) := by
  unfold settle
  split
  · refine .idle ?_
    rw [hlock, lock_eq_some]
    exact ⟨(lock_eq_some.mp hlock).1, rfl⟩
  · exact .drop hlock hwindows nofun fun _ => lock_dropWindow

variable {presentation : TicketPresentation} {now : Instant}

theorem authentic_of_bound {placeholder : ControllerPlaceholder} (hsame : ticket.bytes = presentation.ticket)
    (hbound : presentation.bound checks window ticket = .ok ()) (hwindow : placeholder.window = window.record.index) :
    Authentic window ticket ⟨placeholder, presentation, now, checks⟩ := by
  obtain ⟨_, hgeneration, hbound⟩ := bind_eq_ok.mp hbound
  obtain ⟨_, hstart, hverify⟩ := bind_eq_ok.mp hbound
  rw [rejectIf_eq_ok, not_not] at hgeneration hstart
  obtain ⟨hpid, hlive, hsnapshot⟩ := verifyWindowProcess_eq_ok (mapError_eq_ok.mp hverify)
  exact { index := hwindow.symm
          carried := hsame.symm
          generation := hgeneration.symm
          pid := hpid
          startTime := hstart
          live := hlive
          snapshot := hpid ▸ hsnapshot }

theorem moves_spend (restore : ControllerPlaceholder → Restore T) (hlock : hold.lock = some held)
    (hwindows : held.windows = pre ++ window :: post) (hticket : window.ticket = some ticket)
    (hsame : ticket.bytes = presentation.ticket) (hearly : now < held.expiresAt)
    (hbound : presentation.bound checks window ticket = .ok ()) (hfresh : presentation.splintId ∉ ticket.spent) :
    let redeemed := spend presentation restore hold held pre window ticket post
    Moves hold (redeemed.deed presentation now checks) redeemed.hold := by
  unfold spend
  cases hsplit : splitFirst (fun placeholder : ControllerPlaceholder =>
      placeholder.window = window.record.index ∧ placeholder.splintId = presentation.splintId)
      held.placeholders with
  | none => exact moves_miss hlock hwindows
  | some found =>
    obtain ⟨before, placeholder, after⟩ := found
    obtain ⟨hplaceholders, hmatch, -⟩ := splitFirst_eq_some hsplit
    obtain ⟨hwindow, hsplint⟩ : placeholder.window = window.record.index ∧
      placeholder.splintId = presentation.splintId := of_decide_eq_true hmatch
    rw [← hsplint] at hfresh
    have hsettle : ∀ held', (settle hold (held.spending pre window ticket post before after
        placeholder.splintId) pre window post).lock = some held' → _ := fun _ => lock_settle
    dsimp only
    by_cases hincarnation : placeholder.incarnation ≠ presentation.incarnation ∨
        presentation.liveIncarnation ≠ some placeholder.incarnation
    · rw [if_pos hincarnation]
      exact .spend hlock hwindows hticket hplaceholders hwindow hfresh nofun hsettle
    · rw [if_neg hincarnation]
      rw [not_or, not_not, not_not] at hincarnation
      have hrightful : Rightful held window ticket placeholder
          ⟨placeholder, presentation, now, checks⟩ :=
        { given := rfl
          early := hearly
          authentic := authentic_of_bound hsame hbound hwindow
          splint := hsplint.symm
          named := hincarnation.1.symm
          live := hincarnation.2 }
      have hdeed : ∀ d, some (Deed.called ⟨placeholder, presentation, now, checks⟩) = some d →
          ∃ call, d = .called call ∧ Rightful held window ticket placeholder call :=
        fun d hd => ⟨_, (some.inj hd).symm, hrightful⟩
      cases restore placeholder with
      | lease | unavailable => exact .spend hlock hwindows hticket hplaceholders hwindow hfresh hdeed hsettle
      | panicked =>
        refine .spend hlock hwindows hticket hplaceholders hwindow hfresh hdeed fun held' h => ?_
        simp [lock_eq_some] at h

theorem moves_redeem (hold : HandoffWindowHold) (checks : ProcessChecks)
    (presentation : TicketPresentation) (now : Instant) (restore : ControllerPlaceholder → Restore T) :
    let redeemed := redeem checks presentation now restore hold
    Moves hold (redeemed.deed presentation now checks) redeemed.hold := by
  unfold redeem
  cases hlock : hold.lock with
  | none => exact .idle rfl
  | some held =>
    dsimp only
    by_cases hexpired : held.expiresAt ≤ now
    · rw [if_pos hexpired]
      exact .close (by simp [HandoffWindowHold.lock])
    · rw [if_neg hexpired]
      cases hsplit : splitLast (·.answersTo presentation.ticket) held.windows with
      | none => exact .idle rfl
      | some found =>
        obtain ⟨pre, window, post⟩ := found
        obtain ⟨hwindows, hanswers⟩ := splitLast_eq_some hsplit
        dsimp only
        cases hticket : window.ticket with
        | none => exact .idle rfl
        | some ticket =>
          have hsame : ticket.bytes = presentation.ticket := by
            rw [HeldHandoffWindow.answersTo, hticket] at hanswers
            exact eq_of_sameTicket hanswers
          dsimp only
          cases hbound : presentation.bound checks window ticket with
          | error refusal =>
            refine .drop hlock hwindows (fun d hd => ⟨ticket, hticket, ?_⟩)
              fun _ => lock_dropWindow
            rw [hsame]
            obtain rfl | ⟨mismatch, rfl⟩ := bound_eq_error hbound <;> exact (some.inj hd).symm
          | ok u =>
            by_cases hspent : presentation.splintId ∈ ticket.spent
            · rw [if_pos hspent]
              exact .idle rfl
            · rw [if_neg hspent]
              exact moves_spend restore hlock hwindows hticket hsame (Nat.lt_of_not_le hexpired)
                hbound hspent

theorem moves_step (hold : HandoffWindowHold) (input : Input T) :
    Moves hold (step hold input).2 (step hold input).1 := by
  cases input with
  | claim claim => exact moves_completeClaim hold claim
  | present presentation now checks restore => exact moves_redeem hold checks presentation now restore
  | refuse index => exact moves_refuseWindow hold index
  | serve => exact moves_serveContinuations hold
  | release => exact moves_release hold

end Splinterm.Handoff
