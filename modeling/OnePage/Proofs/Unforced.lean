import Mathlib.Data.List.Forall2
import OnePage.Proofs.Registration

/-! # Results that are not forced

A change to the event queue can be bound to fail. Where none is (`Kernel.Unforced`), what comes of
each change can be told beforehand from what is watched. So can all that is done to close a
connection, but for the time that its line in the access log has and for what the log makes of the
line (`Errand`). -/

namespace OnePage
open EventQueue

/-- Whether no change to the event queue is bound to fail. -/
def Kernel.Unforced (k : Kernel) : Prop := ∀ e, some (Reply.fails e) ∉ k.forced .epollControl

/-! ## Errands -/

/-- What a server does, whenever it does it and whatever comes of its messages. -/
inductive Errand where
  | call (call : Call)
  | tell (severity : Severity) (message : String)
  /-- Enters a connection in the access log. -/
  | enter (c : Connection)

/-- The calls that an errand can come to, by the times that lines of the access log can have. -/
inductive Errand.Comes (zone : Int) (dates : Int → Prop) : Errand → Call → Prop
  | call (call : Call) : Comes zone dates (.call call) call
  | tell (severity : Severity) (message : String) (outputs : List Output) :
    Comes zone dates (.tell severity message) (.log severity message outputs)
  | enter {c : Connection} {seconds : Int} {line : String} (hd : dates seconds)
    (hl : Log.accessLine c seconds zone = some line) (outputs : List Output) :
    Comes zone dates (.enter c) (.log .info line outputs)

/-- The calls that some errands can come to. -/
abbrev Errand.AllCome (zone : Int) (dates : Int → Prop) : List Errand → List Call → Prop :=
  List.Forall₂ (Comes zone dates)

theorem Errand.Comes.mono {zone : Int} {dates dates' : Int → Prop} {errand : Errand} {call : Call}
    (H : errand.Comes zone dates call) (h : ∀ seconds, dates seconds → dates' seconds) :
    errand.Comes zone dates' call := by
  cases H with
  | call => exact .call call
  | tell severity message outputs => exact .tell severity message outputs
  | enter hd hl outputs => exact .enter (h _ hd) hl outputs

theorem Errand.AllCome.mono {zone : Int} {dates dates' : Int → Prop} {errands : List Errand}
    {calls : List Call} (H : AllCome zone dates errands calls)
    (h : ∀ seconds, dates seconds → dates' seconds) : AllCome zone dates' errands calls :=
  H.imp fun _ _ H => H.mono h

/-! ## Logging -/

namespace LogSink

/-- Whether at most a log's own file has changed, by what was written at its end. -/
structure Spares (log : LogSink) (files files' : Files) : Prop where
  find (path : String) : files'.find path = files.find path
  content {id : FileId} (h : log = file id → files.content? id = none) :
    files'.content? id = files.content? id

namespace Spares
variable {log : LogSink} {files files' files'' : Files}

theorem refl (log : LogSink) (files : Files) : log.Spares files files :=
  ⟨fun _ => rfl, fun _ => rfl⟩

theorem trans (H : log.Spares files files') (H' : log.Spares files' files'') :
    log.Spares files files'' where
  find path := (H'.find path).trans (H.find path)
  content h := (H'.content fun hl => (H.content h).trans (h hl)).trans (H.content h)

end Spares

/-- Paths lead where they did while the same places are directories. -/
theorem find_congr {files files' : Files} (hp : files'.places = files.places)
    (hd : ∀ place, files'.isDirectory place = files.isDirectory place) (path : String) :
    files'.find path = files.find path := by
  have hid (place : Place) : files'.idOf? place = files.idOf? place := by
    simp only [Files.idOf?, hp]
  have hstep : files'.step = files.step := by
    funext place name
    simp only [Files.step, hd, hid]
  simp only [Files.find, Files.walk, hstep, hd, hid]

end LogSink

/-! ## Calls -/

/-- `k'` is what `calls` make of `k` while nothing is forced to fail. -/
structure Kernel.Continues (log : LogSink) (k : Kernel) (calls : List Call) (k' : Kernel) : Prop
    extends k.Extends calls k' where
  pending : k'.pending = k.pending
  unforced : k.Unforced → k'.Unforced
  files : log.Spares k.files k'.files

namespace Kernel.Continues
variable {log : LogSink} {k k' k'' : Kernel} {calls more : List Call}

theorem refl (log : LogSink) (k : Kernel) : k.Continues log [] k :=
  ⟨.refl k, rfl, id, .refl log k.files⟩

theorem trans (H : k.Continues log calls k') (H' : k'.Continues log more k'') :
    k.Continues log (calls ++ more) k'' :=
  ⟨H.toExtends.trans H'.toExtends, H'.pending.trans H.pending, H'.unforced ∘ H.unforced,
    H.files.trans H'.files⟩

protected theorem watch (H : k.Continues log calls k') (fd : Fd) (w : Watch) :
    (k.watch fd w).Continues log calls (k'.watch fd w) :=
  ⟨H.toExtends.watch fd w, H.pending, H.unforced, H.files⟩

protected theorem unwatch (H : k.Continues log calls k') (fd : Fd) :
    (k.unwatch fd).Continues log calls (k'.unwatch fd) :=
  ⟨H.toExtends.unwatch fd, H.pending, H.unforced, H.files⟩

protected theorem closed (H : k.Continues log calls k') (fd : Fd) :
    (k.closed fd).Continues log calls (k'.closed fd) :=
  ⟨H.toExtends.closed fd, H.pending, H.unforced, H.files⟩

theorem record (log : LogSink) (k : Kernel) {call : Call} (h : call.isLog = false) :
    k.Continues log [call] (Sys.record call k).2 :=
  ⟨.record k h, rfl, id, .refl log k.files⟩

end Kernel.Continues

namespace Sys
variable {k : Kernel}

theorem reply_continues (log : LogSink) (call : SystemCall) (k : Kernel) :
    ∃ r k', reply call k = (r, k') ∧ k.Continues log [] k' ∧
      (r = none ∨ r ∈ k.forced call) := by
  cases h : k.forced call with
  | nil => exact ⟨none, k, by simp [reply, h], .refl log k, .inl rfl⟩
  | cons r rest =>
    refine ⟨r, { k with forced := k.forced.set call rest }, by simp [reply, h],
      ⟨.of_eq rfl (set_subset h), rfl, fun U e he => U e (set_subset h _ he), .refl log k.files⟩,
      .inr (by simp)⟩

theorem control_unforced (log : LogSink) (U : k.Unforced) (senseless : Bool) (e : Errno)
    {change : Kernel → Kernel}
    (hchange : ∀ {k calls k'}, k.Continues log calls k' →
      (change k).Continues log calls (change k'))
    {call : Outcome → Call} (hcall : ∀ r, (call r).isLog = false) :
    ∃ k', (do
      let result ← controlResult senseless e
      if result.isOk then modify change
      record (call result)
      return result : Sys Outcome) k = (if senseless then .error e else .ok (), k') ∧
      (if senseless then k else change k).Continues log
        [call (if senseless then .error e else .ok ())] k' := by
  obtain ⟨r, k₁, h, H, hr⟩ := reply_continues log .epollControl k
  have hresult : controlResult senseless e k = (if senseless then .error e else .ok (), k₁) := by
    have houtcome : outcome .epollControl k = (.ok (), k₁) := by
      simp only [outcome, StateM.bind_apply, h]
      split
      · rename_i e'
        rcases hr with hnone | hmem
        · cases hnone
        · exact absurd hmem (U e')
      · rfl
    simp only [controlResult, StateM.bind_apply, houtcome]
    split <;> rfl
  cases senseless with
  | true =>
    refine ⟨_, ?_, H.trans (.record log k₁ (hcall _))⟩
    simp [hresult, Except.isOk, Except.toBool]
  | false =>
    refine ⟨_, ?_, (hchange H).trans (.record log _ (hcall _))⟩
    simp [hresult, Except.isOk, Except.toBool]

theorem add_unforced (log : LogSink) (U : k.Unforced) (fd : Fd) (token : Token)
    (conditions : Conditions) :
    ∃ k', add fd token conditions k =
        (if k.watches.contains fd then .error .EEXIST else .ok (), k') ∧
      (if k.watches.contains fd then k else k.watch fd ⟨token, conditions⟩).Continues log
        [.add fd token conditions
          (if k.watches.contains fd then .error .EEXIST else .ok ())] k' :=
  control_unforced log U _ _ (fun H => H.watch fd _) fun _ => rfl

theorem modifyWatch_unforced (log : LogSink) (U : k.Unforced) {fd : Fd}
    (hw : k.watches.contains fd) (token : Token) (conditions : Conditions) :
    ∃ k', modifyWatch fd token conditions k = (.ok (), k') ∧
      (k.watch fd ⟨token, conditions⟩).Continues log [.modify fd token conditions (.ok ())] k' := by
  obtain ⟨k', h, H⟩ := control_unforced log U (!k.watches.contains fd) .ENOENT
    (fun H => H.watch fd ⟨token, conditions⟩)
    (fun _ => rfl : ∀ r, (Call.modify fd token conditions r).isLog = false)
  simp only [hw, Bool.not_true, Bool.false_eq_true, if_false] at H
  refine ⟨k', ?_, H⟩
  have hrun : modifyWatch fd token conditions k =
      (if !k.watches.contains fd then .error .ENOENT else .ok (), k') := h
  simpa [hw] using hrun

end Sys

namespace EventQueue

/-- The calls that register a descriptor, by whether it is watched already. -/
def registering (fd : Fd) (token : Token) (interest : Interest) (watched : Bool) : List Call :=
  if watched then
    [.add fd token interest.conditions (.error .EEXIST),
      .modify fd token interest.conditions (.ok ())]
  else [.add fd token interest.conditions (.ok ())]

section
variable {k : Kernel}

theorem register_unforced (log : LogSink) (U : k.Unforced) (fd : Fd) (token : Token)
    (interest : Interest) :
    ∃ k', register fd token interest k = (.ok (), k') ∧
      (k.watch fd ⟨token, interest.conditions⟩).Continues log
        (registering fd token interest (k.watches.contains fd)) k' := by
  obtain ⟨k₁, h, H⟩ := Sys.add_unforced log U fd token interest.conditions
  cases hw : k.watches.contains fd with
  | false =>
    simp only [hw] at h H
    exact ⟨k₁, by simp [register, h], H⟩
  | true =>
    simp only [hw, if_true] at h H
    have hw₁ : k₁.watches.contains fd := by rw [H.watches]; exact hw
    obtain ⟨k', h', H'⟩ :=
      Sys.modifyWatch_unforced log (H.unforced U) hw₁ token interest.conditions
    exact ⟨k', by simp [register, reregister, h, h'], (H.watch fd _).trans H'⟩

end

end EventQueue

namespace Server
variable {s : Server} {k : Kernel} {token : Token} {c : Connection}

/-- The calls that take up accepting again, if it is paused. -/
def resuming (s : Server) (k : Kernel) : List Call :=
  if s.pausedSince.isSome then
    registering s.listener listenerToken .accept (k.watches.contains s.listener)
  else []

/-- The kernel with the listener watched, if accepting is paused. -/
def resumed (s : Server) (k : Kernel) : Kernel :=
  if s.pausedSince.isSome then k.watch s.listener ⟨listenerToken, Interest.accept.conditions⟩
  else k

theorem resumeIfPaused_unforced (s : Server) (U : k.Unforced) :
    ∃ k', resumeIfPaused s k = (((), { s with pausedSince := none }), k') ∧
      (s.resumed k).Continues s.log (s.resuming k) k' := by
  unfold resumed resuming
  have hrun : resumeIfPaused s k = (if s.pausedSince.isSome then resume else pure ()) s k := rfl
  cases hp : s.pausedSince with
  | none =>
    refine ⟨k, ?_, .refl s.log k⟩
    rw [hrun, hp]
    exact congrArg (fun p => (((), p), k)) (by rw [← hp])
  | some since =>
    obtain ⟨k', h, H⟩ := register_unforced s.log U s.listener listenerToken .accept
    refine ⟨k', ?_, H⟩
    rw [hrun, hp]
    simp [resume, h]

/-- What is done about a connection's line in the access log, if it has one. -/
def entering (c : Connection) : List Errand :=
  if c.status.isSome && c.requestLine.isSome then [.enter c] else []

/-- What is done to close a connection. -/
def parting (c : Connection) : List Errand :=
  .call (.delete c.socket (.ok ())) :: (entering c ++ [.call (.close c.socket)])

end Server

end OnePage
