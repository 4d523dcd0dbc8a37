import OnePage.Proofs.Dependence
import OnePage.Proofs.Lifetimes
import OnePage.Proofs.Unforced

/-! # What the events of a batch come to

What an event comes to for its connection is worked out from that connection alone (`Effect`).
Where no change to the event queue is forced to fail, events bring about their effects one after
another, and the first that closes a connection lets accepting go on (`Server.Brings`). -/

namespace OnePage
open EventQueue

/-! ## What an event comes to -/

/-- What an event is handled in front of. -/
structure Setting where
  files : Files
  page : String
  now : Nanoseconds
  log : LogSink
  zone : Int
  walk : Walk

/-- What comes of an event for its connection: what is done on its socket and for the log, what is
added to the totals, and how it is left, with what its socket has yet to give, if it stays. -/
structure Effect where
  errands : List Errand
  stats : Stats
  after : Option (Connection × Pending)

def Verdict.stays : Verdict → Bool
  | .wait => true
  | .rearm => true
  | _ => false

/-- Whether kernels differ in what is open and watched, and in what sockets have yet to give, at
most. -/
def Kernel.Rewatched (k k' : Kernel) : Prop :=
  k' = { k with descriptors := k'.descriptors, watches := k'.watches, pending := k'.pending }

namespace Kernel.Rewatched
variable {k k' : Kernel}

theorem refl (k : Kernel) : k.Rewatched k := rfl

theorem closed (k : Kernel) (fd : Fd) : k.Rewatched (k.closed fd) := rfl

theorem trace (h : k.Rewatched k') : k'.trace = k.trace := by rw [h]

theorem secondsAt (h : k.Rewatched k') (n : Nat) : k'.secondsAt n = k.secondsAt n := by
  rw [h]
  rfl

end Kernel.Rewatched

/-- Whether the system's clock shows `seconds` at some time on the way from `k` to `k'`. -/
def Kernel.Shows (k k' : Kernel) (seconds : Int) : Prop :=
  ∃ n, k.trace.size ≤ n ∧ n < k'.trace.size ∧ k.secondsAt n = seconds

namespace Kernel.Shows
variable {k k' k'' : Kernel} {seconds : Int}

theorem of_later (H : k'.Shows k'' seconds) (hle : k.trace.size ≤ k'.trace.size)
    (h : ∀ n, k'.secondsAt n = k.secondsAt n) : k.Shows k'' seconds := by
  obtain ⟨n, hn, hn', rfl⟩ := H
  exact ⟨n, Nat.le_trans hle hn, hn', (h n).symm⟩

theorem of_sooner (H : k.Shows k' seconds) (hle : k'.trace.size ≤ k''.trace.size) :
    k.Shows k'' seconds := by
  obtain ⟨n, hn, hn', rfl⟩ := H
  exact ⟨n, hn, Nat.lt_of_lt_of_le hn' hle, rfl⟩

end Kernel.Shows

namespace Setting

/-- What a verdict leads to. -/
def concluding (token : Token) (c : Connection) : Verdict → List Errand
  | .wait => []
  | .rearm => [.call (.modify c.socket token c.interest.conditions (.ok ()))]
  | .close => Server.parting c
  | .fail cause =>
    .tell .warning (c.peer.text ++ ": " ++ cause.chain.oneLine) :: Server.parting c.fail

def effect (w : Setting) (event : Event) (c : Connection) (pending : Pending) : Effect :=
  let result := c.handle event.conditions w.files w.page w.now
    { pending := pending, done := #[], stats := {} }
  let verdict := result.1.1
  { errands := result.2.done.toList.map (fun op => .call (.operation c.socket op)) ++
      concluding event.token result.1.2 verdict
    stats := result.2.stats
    after := if verdict.stays then some (result.1.2, result.2.pending) else none }

/-- Whether a server and a kernel are as `w` has them, the files aside. -/
structure Holds (w : Setting) (s : Server) (k : Kernel) : Prop where
  page : s.config.indexPath = w.page
  log : s.log = w.log
  zone : k.zone = w.zone
  walk : k.walk = w.walk
  files : w.log.Spares w.files k.files
  unforced : k.Unforced

namespace Holds
variable {w : Setting} {s s' : Server} {k k₁ k' : Kernel} {calls : List Call}

theorem continues (W : w.Holds s k) (hk : k.Rewatched k₁) (H : k₁.Continues w.log calls k')
    (hconfig : s'.config = s.config) (hlog : s'.log = s.log) : w.Holds s' k' where
  page := (congrArg Config.indexPath hconfig).trans W.page
  log := hlog.trans W.log
  zone := by rw [H.zone, hk, W.zone]
  walk := by rw [H.walk, hk, W.walk]
  files := W.files.trans ((congrArg Kernel.files hk) ▸ H.files)
  unforced := H.unforced (hk ▸ W.unforced)

end Holds

end Setting

/-- The kernel after a verdict on a connection. -/
def Kernel.concluded (k : Kernel) (token : Token) (c : Connection) : Verdict → Kernel
  | .wait => k
  | .rearm => k.watch c.socket ⟨token, c.interest.conditions⟩
  | _ => k.closed c.socket

namespace Server
variable {s : Server} {k : Kernel} {w : Setting} {token : Token} {c : Connection}

/-- A connection and what its socket has yet to give. -/
def view (s : Server) (k : Kernel) (token : Token) : Option (Connection × Pending) :=
  (s.connections.get? token).map fun c => (c, (k.pending.get? token).getD {})

theorem view_eq_some {pending : Pending} (h : s.view k token = some (c, pending)) :
    s.connections.get? token = some c ∧ (k.pending.get? token).getD {} = pending := by
  unfold view at h
  cases hc : s.connections.get? token with
  | none => simp [hc] at h
  | some c' =>
    rw [hc, Option.map_some, Option.some.injEq, Prod.mk.injEq] at h
    exact ⟨congrArg some h.1, h.2⟩

end Server

/-! ## Calls -/

/-- Whether a call is on a descriptor. -/
def Call.isOn (fd : Fd) (call : Call) : Bool := (Occurrence.call call).socket? = some fd

theorem Call.not_isOn_of_isMessage {fd : Fd} {call : Call} (h : call.isMessage) :
    call.isOn fd = false := by
  simp [Call.isOn, (Occurrence.silent_of_isMessage h).1]

namespace Errand
variable {zone : Int} {dates : Int → Prop} {errand : Errand} {errands : List Errand}
variable {calls : List Call}

/-- Whether an errand is a call on a descriptor. -/
def isOn (fd : Fd) : Errand → Bool
  | call c => c.isOn fd
  | _ => false

def call? : Errand → Option Call
  | call c => some c
  | _ => none

theorem Comes.isOn_eq {call : Call} (H : Comes zone dates errand call) (fd : Fd) :
    call.isOn fd = errand.isOn fd := by
  cases H with
  | call => rfl
  | tell | enter => exact Call.not_isOn_of_isMessage rfl

/-- The calls on a descriptor are errands themselves. -/
theorem AllCome.on (H : AllCome zone dates errands calls) (fd : Fd) :
    calls.filter (·.isOn fd) = (errands.filter (·.isOn fd)).filterMap call? := by
  induction H with
  | nil => rfl
  | cons H _ ih =>
    have hon := H.isOn_eq fd
    rw [List.filter_cons, List.filter_cons, hon, ih]
    cases H with
    | call => split <;> rfl
    | tell | enter => rfl

/-- Whether an errand is a call on a descriptor, if it is one at all. -/
def Within (fd : Fd) (errand : Errand) : Prop := ∀ fd', fd' ≠ fd → errand.isOn fd' = false

theorem AllCome.off {fd fd' : Fd} (H : AllCome zone dates errands calls)
    (h : ∀ errand ∈ errands, errand.Within fd) (hne : fd' ≠ fd) :
    ∀ call ∈ calls, call.isOn fd' = false := by
  induction H with
  | nil => exact List.forall_mem_nil _
  | cons H _ ih =>
    obtain ⟨herrand, h⟩ := List.forall_mem_cons.1 h
    exact List.forall_mem_cons.2 ⟨(H.isOn_eq fd').trans (herrand fd' hne), ih h⟩

end Errand

namespace Setting
variable {w : Setting} {c : Connection}

end Setting

section
variable {fd fd' : Fd} {calls : List Call}

theorem filter_not_on (h : ∀ call ∈ calls, call.isOn fd = false) :
    calls.filter (fun call => !call.isOn fd) = calls ∧ calls.filter (·.isOn fd) = [] :=
  ⟨List.filter_eq_self.2 fun call hcall => by simp [h call hcall],
    List.filter_eq_nil_iff.2 fun call hcall => by simp [h call hcall]⟩

end

/-! ## What events come to -/

/-- Totals of several. -/
def Stats.total (parts : List Stats) : Stats := parts.foldr Stats.add {}

theorem Stats.add_total_append (s : Stats) (parts more : List Stats) :
    s.add (total (parts ++ more)) = (s.add (total parts)).add (total more) := by
  induction parts generalizing s with
  | nil => rfl
  | cons part parts ih =>
    have hcons (parts : List Stats) :
        s.add (total (part :: parts)) = (s.add part).add (total parts) :=
      (s.add_assoc part (total parts)).symm
    rw [List.cons_append, hcons, hcons, ih]

theorem Stats.total_perm {parts parts' : List Stats} (h : parts.Perm parts') :
    total parts = total parts' := by
  have hcomm (s t u : Stats) : t.add (s.add u) = s.add (t.add u) := by
    rw [← add_assoc, ← add_assoc, add_comm t]
  exact h.foldr_eq' (fun s _ t _ u => hcomm s t u) {}

/-- What each of some events comes to, for the connection of its token. -/
abbrev Effects := List (Token × Effect)

namespace Effects

def errands (effects : Effects) : List Errand := effects.flatMap (·.2.errands)

def total (effects : Effects) : Stats := Stats.total (effects.map (·.2.stats))

/-- Whether a connection is closed. -/
def closes (effects : Effects) : Bool := effects.any (·.2.after.isNone)

end Effects

/-- What some events bring about: the effects for their connections, and with the first connection
that is closed, accepting is taken up again if it is paused. -/
structure Server.Brings (w : Setting) (s : Server) (k : Kernel) (effects : Effects)
    (calls : List Call) (s' : Server) (k' : Kernel) : Prop where
  holds : w.Holds s' k'
  registered : s'.Registered k'
  server : s' = { s with
    connections := s'.connections
    stats := s.stats.add effects.total
    pausedSince := if effects.closes then none else s.pausedSince }
  trace : k'.trace = k.trace ++ calls.toArray
  others : Errand.AllCome w.zone (k.Shows k') effects.errands
    (calls.filter fun call => !call.isOn s.listener)
  clock (n : Nat) : k'.secondsAt n = k.secondsAt n
  listener : calls.filter (·.isOn s.listener) = if effects.closes then s.resuming k else []
  watched : k'.watches.get? s.listener =
    if effects.closes then (s.resumed k).watches.get? s.listener
    else k.watches.get? s.listener

namespace Server.Brings
variable {w : Setting} {s s' s'' : Server} {k k' k'' : Kernel} {effects more : Effects}
variable {calls calls' : List Call}

theorem refl (W : w.Holds s k) (R : s.Registered k) : Brings w s k [] [] s k where
  holds := W
  registered := R
  server := rfl
  trace := by simp
  others := .nil
  clock _ := rfl
  listener := rfl
  watched := rfl

theorem trans (H : Brings w s k effects calls s' k') (H' : Brings w s' k' more calls' s'' k'') :
    Brings w s k (effects ++ more) (calls ++ calls') s'' k'' := by
  have hl : s'.listener = s.listener := by rw [H.server]
  have hp : s'.pausedSince = if effects.closes then none else s.pausedSince := by rw [H.server]
  have hcloses : Effects.closes (effects ++ more) = (effects.closes || more.closes) :=
    List.any_append
  have hothers := H'.others
  have hlistener := H'.listener
  have hwatched := H'.watched
  rw [hl] at hothers hlistener hwatched
  -- once a connection has been closed, accepting is not paused any more
  have hresuming : s'.resuming k' = if effects.closes then [] else s.resuming k := by
    unfold resuming
    rw [hp, hl]
    cases hc : effects.closes with
    | true => rfl
    | false =>
      have hk : k'.watches.contains s.listener = k.watches.contains s.listener := by
        have hk := H.watched
        rw [hc] at hk
        exact congrArg Option.isSome hk
      simp [hk]
  have hresumed : (s'.resumed k').watches.get? s.listener =
      if effects.closes then k'.watches.get? s.listener
      else (s.resumed k).watches.get? s.listener := by
    unfold resumed
    rw [hp, hl]
    cases hc : effects.closes with
    | true => rfl
    | false =>
      have hk := H.watched
      rw [hc] at hk
      cases s.pausedSince with
      | none => simpa using hk
      | some since => simp [Kernel.watch]
  have hsize : k.trace.size ≤ k'.trace.size := by simp [H.trace]
  have hsize' : k'.trace.size ≤ k''.trace.size := by simp [H'.trace]
  refine ⟨H'.holds, H'.registered, ?_, ?_, ?_, fun n => (H'.clock n).trans (H.clock n), ?_, ?_⟩
  · rw [H'.server, H.server]
    simp only [Server.mk.injEq, true_and]
    refine ⟨?_, ?_⟩
    · rw [hcloses]
      cases effects.closes <;> cases more.closes <;> rfl
    · rw [Effects.total, Effects.total, Effects.total, List.map_append, Stats.add_total_append]
  · rw [H'.trace, H.trace]
    simp
  · rw [List.filter_append, Effects.errands, List.flatMap_append]
    exact List.rel_append (H.others.mono fun _ h => h.of_sooner hsize')
      (hothers.mono fun _ h => h.of_later hsize H.clock)
  · rw [List.filter_append, H.listener, hlistener, hresuming, hcloses]
    cases effects.closes <;> cases more.closes <;> simp
  · rw [hwatched, hresumed, H.watched, hcloses]
    cases effects.closes <;> cases more.closes <;> rfl

end Server.Brings

namespace Setting
variable {w : Setting}

/-- The connections, each with what its socket has yet to give. -/
abbrev View := Token → Option (Connection × Pending)

/-- What an event comes to, if there is a connection that it is for. -/
def effect? (w : Setting) (view : View) (event : Event) : Option Effect :=
  (view event.token).map fun entry => w.effect event entry.1 entry.2

/-- The connections after an event. -/
def turn (w : Setting) (view : View) (event : Event) : View := fun token =>
  if token = event.token then (w.effect? view event).bind (·.after) else view token

/-- What events in a row come to. -/
def effects (w : Setting) : View → List Event → Effects
  | _, [] => []
  | view, event :: events =>
    ((w.effect? view event).map (event.token, ·)).toList ++ w.effects (w.turn view event) events

/-- The connections after events in a row. -/
def turns (w : Setting) (view : View) (events : List Event) : View := events.foldl w.turn view

end Setting

namespace Server
variable {s : Server} {k : Kernel} {w : Setting} {event : Event} {c : Connection}
variable {pending : Pending}

theorem resumed_rewatched (s : Server) (k : Kernel) : k.Rewatched (s.resumed k) := by
  unfold resumed
  split <;> rfl

/-- What is done to take up accepting depends on whether it is paused, and on the listener. -/
theorem resume_congr {s' : Server} {k' : Kernel} (hl : s'.listener = s.listener)
    (hp : s'.pausedSince = s.pausedSince)
    (hw : k'.watches.get? s.listener = k.watches.get? s.listener) :
    s'.resuming k' = s.resuming k ∧
      (s'.resumed k').watches.get? s.listener = (s.resumed k).watches.get? s.listener := by
  have hcontains : k'.watches.contains s.listener = k.watches.contains s.listener :=
    congrArg Option.isSome hw
  unfold resuming resumed
  rw [hl, hp]
  refine ⟨by rw [hcontains], ?_⟩
  split
  · simp [Kernel.watch]
  · exact hw

section
variable {s' : Server} {k' : Kernel} {token : Token}

end

/-- What an event for a connection has come to once its verdict is carried out, before accepting
goes on. -/
structure Concluded (w : Setting) (s : Server) (k : Kernel) (token : Token) (e : Effect)
    (given : Pending) (calls : List Call) (k' : Kernel) : Prop where
  holds : w.Holds s k'
  trace : k'.trace = k.trace ++ calls.toArray
  clock (n : Nat) : k'.secondsAt n = k.secondsAt n
  come : Errand.AllCome w.zone (k.Shows k') e.errands calls
  off : ∀ call ∈ calls, call.isOn s.listener = false
  pending : k'.pending = k.pending.insert token given
  listener : k'.watches.get? s.listener = k.watches.get? s.listener

namespace Concluded
variable {s' : Server} {k' : Kernel} {token : Token} {e : Effect} {given : Pending}
variable {calls : List Call}

/-- A connection that stays has its effect alone. -/
theorem stays (C : Concluded w s k token e given calls k') (R : s'.Registered k')
    (hs : s' = { s with stats := s.stats.add e.stats, connections := s'.connections })
    (ha : e.after.isSome) : Brings w s k [(token, e)] calls s' k' := by
  have hcloses : Effects.closes [(token, e)] = false := by
    simp [Effects.closes, Option.isNone_eq_false_iff.2 ha]
  obtain ⟨hothers, hlistener⟩ := filter_not_on C.off
  refine ⟨C.holds.continues (.refl k') (.refl w.log k') (by rw [hs]) (by rw [hs]), R, ?_, C.trace,
    ?_, C.clock, ?_, ?_⟩
  · rw [hcloses, hs]
    rfl
  · rw [hothers]
    simpa [Effects.errands] using C.come
  · rw [hlistener, hcloses]
    rfl
  · rw [C.listener, hcloses]
    rfl

end Concluded

end Server

/-! ## A log of its own

What is written to the log changes nothing that is read, unless the log is kept in the page's file
or in one that is being sent. -/

/-- The file of a reply was opened just before, or the reply was there already. -/
theorem Connection.Handles.file {c c' : Connection} {ready : Conditions} {files : Files}
    {page : String} {now : Nanoseconds} {stats stats' : Stats} {ops : List Operation}
    {verdict : Verdict} {r' : Response}
    (H : c.Handles ready files page now stats ops verdict c' stats')
    (h : c'.response = some r') :
    (∃ r, Response.ofPath files page = .ok r ∧ r'.file = r.file) ∨
      ∃ r, c.response = some r ∧ r'.file = r.file := by
  cases H with
  | replied _ _ _ _ _ _ ho Hd hc =>
    cases (Connection.continued_response hc).symm.trans h
    exact .inl ⟨_, ho, Hd.file⟩
  | resumed _ _ hr _ _ Hd hc =>
    cases (Connection.continued_response hc).symm.trans h
    exact .inr ⟨_, hr, Hd.file⟩
  | _ => exact .inr ⟨r', h, rfl⟩

/-- Whether the log is kept in none of the files that a server reads. -/
structure Setting.Apart (w : Setting) (s : Server) : Prop where
  page {r : Response} (h : Response.ofPath w.files w.page = .ok r) : w.log ≠ .file r.file
  sending {token : Token} {c : Connection} {r : Response}
    (h : s.connections.get? token = some c) (hr : c.response = some r) : w.log ≠ .file r.file

namespace Setting.Apart
variable {s s' : Server} {k k' : Kernel} {w : Setting} {event : Event} {events : List Event}

theorem turn (A : w.Apart s) (h : s'.view k' = w.turn (s.view k) event) : w.Apart s' where
  page := A.page
  sending {token} c r hc hr := by
    have hv : s'.view k' token = some (c, (k'.pending.get? token).getD {}) := by
      rw [Server.view, hc]
      rfl
    rw [h, Setting.turn] at hv
    split at hv
    · obtain ⟨e, he, hafter⟩ := Option.bind_eq_some_iff.1 hv
      obtain ⟨⟨c₀, pending⟩, hv₀, rfl⟩ := Option.map_eq_some_iff.1 he
      obtain ⟨hc₀, -⟩ := Server.view_eq_some hv₀
      obtain ⟨ops, verdict, c', x, hx, -, H⟩ := c₀.handle_handles event.conditions w.files w.page
        w.now { pending := pending, done := #[], stats := {} }
      simp only [effect, hx] at hafter
      split at hafter
      · obtain ⟨rfl, -⟩ : c' = c ∧ _ := by simpa using hafter
        obtain ⟨r₀, hr₀, hfile⟩ | ⟨r₀, hr₀, hfile⟩ := H.file hr
        · exact hfile ▸ A.page hr₀
        · exact hfile ▸ A.sending hc₀ hr₀
      · cases hafter
    · exact A.sending (Server.view_eq_some hv).1 hr

end Setting.Apart

end OnePage
