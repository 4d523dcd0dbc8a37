import Mathlib.Algebra.Group.Nat.Defs
import OnePage.Proofs.Scripts
import OnePage.Proofs.Startup

/-! # What a daemon inherits

A sweep closes what was inherited and is not to be kept. The daemon opens three descriptors after
it, and lets go of them once it is ready: what is open then is what was to be kept, and the null
device in place of the standard streams, whichever numbers the three had. -/

namespace OnePage

namespace Kernel

/-- Descriptors are closed, one after the other. -/
def closedAll (k : Kernel) (fds : List Fd) : Kernel :=
  { k with
    descriptors := fds.foldl Table.erase k.descriptors
    watches := fds.foldl Table.erase k.watches }

theorem Spends.closedAll {k k' : Kernel} {spent : List SystemCall} {calls : List Call}
    (H : k.Spends spent calls k') (fds : List Fd) :
    (k.closedAll fds).Spends spent calls (k'.closedAll fds) :=
  { H with
    descriptors := by rw [Kernel.closedAll, Kernel.closedAll, H.descriptors]
    watches := by rw [Kernel.closedAll, Kernel.closedAll, H.watches] }

theorem get?_closedAll (k : Kernel) (fds : List Fd) (fd : Fd) :
    (k.closedAll fds).descriptors.get? fd =
      if fd ∈ fds then none else k.descriptors.get? fd := by
  induction fds generalizing k with
  | nil => rfl
  | cons first fds ih =>
    have h : (k.closedAll (first :: fds)).descriptors =
      ((k.closed first).closedAll fds).descriptors := rfl
    rw [h, ih, closed, Table.get?_erase]
    by_cases hfirst : fd = first
    · simp [hfirst]
    · simp [hfirst]

/-- What a daemon holds until it is ready is open. -/
def holding (k : Kernel) (d : Daemon) : Kernel :=
  ((k.opened d.lifelineReader .pipeReader).opened d.lifelineWriter .pipeWriter).opened d.null .null

theorem Spends.holding {k k' : Kernel} {spent : List SystemCall} {calls : List Call}
    (H : k.Spends spent calls k') (d : Daemon) :
    (k.holding d).Spends spent calls (k'.holding d) :=
  ((H.opened _ _).opened _ _).opened _ _

/-- The standard streams stand for the null device. -/
def muted (k : Kernel) : Kernel :=
  ((k.opened Daemon.stdin .null).opened Daemon.stdout .null).opened Daemon.stderr .null

/-- The same, and the null device is let go of that was opened for it. -/
def redirected (k : Kernel) (null : Fd) : Kernel :=
  if Daemon.stderr < null then k.muted.closed null else k.muted

theorem Spends.muted {k k' : Kernel} {spent : List SystemCall} {calls : List Call}
    (H : k.Spends spent calls k') : k.muted.Spends spent calls k'.muted :=
  ((H.opened _ _).opened _ _).opened _ _

theorem Spends.redirected {k k' : Kernel} {spent : List SystemCall} {calls : List Call}
    (H : k.Spends spent calls k') (null : Fd) :
    (k.redirected null).Spends spent calls (k'.redirected null) := by
  unfold Kernel.redirected
  split
  · exact H.muted.closed null
  · exact H.muted

theorem get?_muted (k : Kernel) (fd : Nat) :
    k.muted.descriptors.get? fd = if fd ≤ 2 then some .null else k.descriptors.get? fd := by
  simp only [muted, opened, Table.get?_insert, Daemon.stdin, Daemon.stdout, Daemon.stderr]
  by_cases hfd : fd ≤ 2
  · rw [if_pos hfd]
    obtain rfl | rfl | rfl : fd = 0 ∨ fd = 1 ∨ fd = 2 := by omega
    · rfl
    · rfl
    · rfl
  · rw [if_neg (by omega), if_neg (by omega), if_neg (by omega), if_neg hfd]

theorem get?_redirected (k : Kernel) (null fd : Nat) :
    (k.redirected null).descriptors.get? fd =
      if fd ≤ 2 then some .null else if fd = null then none else k.descriptors.get? fd := by
  by_cases hnull : Daemon.stderr < null
  · have hlow : 2 < null := hnull
    rw [redirected, if_pos hnull, closed, Table.get?_erase, get?_muted]
    by_cases hfd : fd ≤ 2
    · rw [if_neg (by omega), if_pos hfd, if_pos hfd]
    · rw [if_neg hfd, if_neg hfd]
  · have hlow : ¬2 < null := hnull
    rw [redirected, if_neg hnull, get?_muted]
    by_cases hfd : fd ≤ 2
    · rw [if_pos hfd, if_pos hfd]
    · rw [if_neg hfd, if_neg hfd, if_neg (by omega)]

/-- What comes of the fork before which there are `n` others. -/
def forked (k : Kernel) (n : Nat) : Except Errno Nat :=
  match k.laid .fork n with
  | some (.fails e) => .error e
  | some (.value child) => .ok child
  | _ => .ok 0

theorem Spends.forked {k k' : Kernel} {spent : List SystemCall} {calls : List Call}
    (H : k.Spends spent calls k') (n : Nat) :
    k'.forked n = k.forked (spent.count .fork + n) := by
  rw [Kernel.forked, H.laid, Kernel.forked]

/-- The calls by which a process becomes a daemon that is ready, each with how often it is made. -/
@[simp] def becoming : List (SystemCall × Nat) :=
  [(.pipe, 1), (.openNull, 1), (.setsid, 1), (.signal, 1), (.write, 1), (.dup2, 3)]

/-- A process becomes the daemon: its calls succeed, and it is the new one after each fork. -/
structure BecomesDaemon (k : Kernel) : Prop where
  grants (call : SystemCall) (n : Nat) (h : (call, n) ∈ becoming) : k.Grants call n
  fork (i : Nat) (h : i < 2) : k.forked i = .ok 0

/-- A sweep does not take the results that are laid down for what comes after it. -/
theorem Spends.becomesDaemon {k k' : Kernel} {fds : List Fd} {n : Nat} {calls : List Call}
    (H : (k.closedAll fds).Spends (.getrlimit :: List.replicate n .close) calls k')
    (B : k.BecomesDaemon) : k'.BecomesDaemon := by
  have hfree {call : SystemCall} (h : call ≠ .getrlimit ∧ call ≠ .close) :
      call ∉ SystemCall.getrlimit :: List.replicate n .close := by
    simp [List.mem_replicate, h]
  refine ⟨fun call m h => ?_, fun i hi => ?_⟩
  · have hcall : call ≠ .getrlimit ∧ call ≠ .close := by
      constructor <;> rintro rfl <;> simp at h
    exact H.grants_of_not_mem (hfree hcall) (B.grants call m h)
  · rw [H.forked, List.count_eq_zero.2 (hfree (by simp)), Nat.zero_add]
    exact B.fork i hi

end Kernel

/-! ## Single calls -/

namespace Sys
variable (k : Kernel)

theorem descriptorLimit_spends :
    ∃ k', descriptorLimit k = ((descriptorLimit k).1, k') ∧ k.Spends [.getrlimit] [] k' := by
  obtain ⟨k', h, H⟩ := reply_spends .getrlimit k
  refine ⟨k', Prod.ext rfl ?_, H⟩
  simp only [descriptorLimit, StateM.bind_apply, h]
  rcases k.laid .getrlimit 0 with _ | r
  · rfl
  · cases r <;> rfl

theorem pipe_spends (hv : k.Grants .pipe 1) :
    ∃ reader writer k', pipe k = (.ok (reader, writer), k') ∧
      ((k.opened reader .pipeReader).opened writer .pipeWriter).Spends [.pipe]
        [.pipe (.ok (reader, writer))] k' := by
  obtain ⟨k₁, h, H⟩ := reply_spends .pipe k
  have hv := hv 0 Nat.one_pos
  have hrun : ∃ reader writer, pipe k = (.ok (reader, writer),
      (record (.pipe (.ok (reader, writer)))
        ((k₁.opened reader .pipeReader).opened writer .pipeWriter)).2) := by
    simp only [pipe, StateM.bind_apply, h]
    rcases hl : k.laid .pipe 0 with _ | r
    · exact ⟨_, _, rfl⟩
    · cases r with
      | fails e => simp [Kernel.verdict, hl] at hv
      | _ => exact ⟨_, _, rfl⟩
  obtain ⟨reader, writer, hrun⟩ := hrun
  exact ⟨reader, writer, _, hrun, ((H.opened _ _).opened _ _).trans (.record _ rfl)⟩

theorem openNull_spends (hv : k.Grants .openNull 1) :
    ∃ fd k', openNull k = (.ok fd, k') ∧
      (k.opened fd .null).Spends [.openNull] [.openNull (.ok fd)] k' := by
  obtain ⟨k₁, h, H⟩ := reply_spends .openNull k
  have hv := hv 0 Nat.one_pos
  have hrun : ∃ fd, openNull k =
      (.ok fd, (record (.openNull (.ok fd)) (k₁.opened fd .null)).2) := by
    simp only [openNull, StateM.bind_apply, h]
    rcases hl : k.laid .openNull 0 with _ | r
    · exact ⟨_, rfl⟩
    · cases r with
      | fails e => simp [Kernel.verdict, hl] at hv
      | _ => exact ⟨_, rfl⟩
  obtain ⟨fd, hrun⟩ := hrun
  exact ⟨fd, _, hrun, (H.opened _ _).trans (.record _ rfl)⟩

theorem fork_spends :
    ∃ k', fork k = (k.forked 0, k') ∧ k.Spends [.fork] [.fork (k.forked 0)] k' := by
  obtain ⟨k₁, h, H⟩ := reply_spends .fork k
  refine ⟨(record (.fork (k.forked 0)) k₁).2, ?_, H.trans (.record _ rfl)⟩
  simp only [fork, StateM.bind_apply, h]
  rfl

theorem write_spends (hv : k.Grants .write 1) (fd : Fd) (data : List UInt8) :
    ∃ k', write fd data k = (.ok data.length, k') ∧
      k.Spends [.write] [.write fd data (.ok data.length)] k' := by
  obtain ⟨k₁, h, H⟩ := outcome_spends .write k
  rw [hv 0 Nat.one_pos] at h
  exact ⟨_, by simp only [write, StateM.bind_apply, h]; rfl, H.trans (.record _ rfl)⟩

theorem duplicate_spends {source : Fd} {resource : Resource} (hv : k.Grants .dup2 1)
    (hs : k.descriptors.get? source = some resource) (target : Fd) :
    ∃ k', duplicate source target k = (.ok (), k') ∧
      (k.opened target resource).Spends [.dup2] [.duplicate source target (.ok ())] k' := by
  obtain ⟨k₁, h, H⟩ := outcome_spends .dup2 k
  rw [hv 0 Nat.one_pos] at h
  have hs₁ : k₁.descriptors.get? source = some resource := H.descriptors ▸ hs
  refine ⟨(record (.duplicate source target (.ok ())) (k₁.opened target resource)).2, ?_,
    (H.opened target resource).trans (.record _ rfl)⟩
  simp [duplicate, h, hs₁, Except.isOk, Except.toBool, Kernel.opened]

end Sys

namespace Daemon

/-! ## The sweep -/

theorem mem_swept {keep : List Fd} {bound fd : Nat} :
    fd ∈ swept keep bound ↔ 3 ≤ fd ∧ fd < bound ∧ fd ∉ keep := by
  rw [swept, List.mem_filter, List.mem_range'_1, stderr, Bool.not_eq_true', List.contains_eq_mem,
    decide_eq_false_iff_not]
  constructor
  · rintro ⟨⟨hlow, hhigh⟩, hkeep⟩
    exact ⟨hlow, by omega, hkeep⟩
  · rintro ⟨hlow, hhigh, hkeep⟩
    exact ⟨⟨hlow, by omega⟩, hkeep⟩

theorem swept_ascending (keep : List Fd) (bound : Nat) : (swept keep bound).Pairwise (· < ·) :=
  (List.pairwise_lt_range' ..).filter _

theorem sweepBound_ofNat (n : Nat) :
    sweepBound (.ofNat n) = if n = 2 ^ 64 - 1 then 2 ^ 20 else min n (2 ^ 31 - 1) := by
  have hinfinity : 2 ^ 64 - 1 = Sys.Limit.infinity := rfl
  rw [hinfinity, Sys.Limit.ofNat]
  by_cases h : n = Sys.Limit.infinity
  · rw [if_pos h, if_pos h]
    rfl
  · rw [if_neg h, if_neg h]
    rfl

theorem closeAll_spends (fds : List Fd) (k : Kernel) :
    ∃ k', closeAll fds k = ((), k') ∧ (k.closedAll fds).Spends
      (List.replicate fds.length .close) (fds.map .close) k' := by
  induction fds generalizing k with
  | nil => exact ⟨k, rfl, .refl k⟩
  | cons fd fds ih =>
    obtain ⟨r, k₁, h₁, H₁⟩ := Sys.close_spends fd k
    obtain ⟨k₂, h₂, H₂⟩ := ih k₁
    have h : closeAll (fd :: fds) k = closeAll fds (Sys.close fd k).2 := rfl
    exact ⟨k₂, by rw [h, h₁, h₂], (H₁.closedAll fds).trans H₂⟩

variable {k : Kernel} {limit : Sys.Limit}

theorem closeInherited_tooLow (hl : (Sys.descriptorLimit k).1 = .ok limit)
    (hb : sweepBound limit ≤ stderr) (keep : List Fd) :
    ∃ k', closeInherited keep k = (.error (.limitTooLow (sweepBound limit)), k') ∧
      k.Spends [.getrlimit] [] k' := by
  obtain ⟨k', h, H⟩ := Sys.descriptorLimit_spends k
  rw [hl] at h
  exact ⟨k', by simp [closeInherited, h, hb], H⟩

theorem closeInherited_spends (hl : (Sys.descriptorLimit k).1 = .ok limit)
    (hb : stderr < sweepBound limit) (keep : List Fd) :
    ∃ k', closeInherited keep k = (.ok (), k') ∧
      (k.closedAll (swept keep (sweepBound limit))).Spends
        (.getrlimit :: List.replicate (swept keep (sweepBound limit)).length .close)
        ((swept keep (sweepBound limit)).map .close) k' := by
  obtain ⟨k₁, h₁, H₁⟩ := Sys.descriptorLimit_spends k
  obtain ⟨k₂, h₂, H₂⟩ := closeAll_spends (swept keep (sweepBound limit)) k₁
  rw [hl] at h₁
  exact ⟨k₂, by simp [closeInherited, h₁, Nat.not_le.2 hb, h₂], (H₁.closedAll _).trans H₂⟩

/-! ## Becoming the daemon -/

theorem prepare_spends (hp : k.Grants .pipe 1) (hn : k.Grants .openNull 1) :
    ∃ d k', prepare k = (.ok d, k') ∧ (k.holding d).Spends [.pipe, .openNull]
      [.pipe (.ok (d.lifelineReader, d.lifelineWriter)), .openNull (.ok d.null)] k' := by
  obtain ⟨reader, writer, k₁, h₁, H₁⟩ := Sys.pipe_spends k hp
  obtain ⟨null, k₂, h₂, H₂⟩ := Sys.openNull_spends k₁ (H₁.grants_of_not_mem (by simp) hn)
  exact ⟨⟨reader, writer, null⟩, k₂, by simp [prepare, h₁, h₂], (H₁.opened null .null).trans H₂⟩

theorem leaveSession_spends (hs : k.Grants .setsid 1) (hg : k.Grants .signal 1)
    (hf : k.forked 0 = .ok 0) (d : Daemon) :
    ∃ k', leaveSession d k = (.ok (.daemon d), k') ∧ k.Spends [.setsid, .signal, .fork]
      [.createSession (.ok ()), .setSignal .hangup .ignore (.ok ()), .fork (.ok 0)] k' := by
  obtain ⟨k₁, h₁, H₁⟩ := Sys.recorded_spends .setsid .createSession (fun _ => rfl) k
  obtain ⟨k₂, h₂, H₂⟩ := Sys.recorded_spends .signal (.setSignal .hangup .ignore) (fun _ => rfl) k₁
  obtain ⟨k₃, h₃, H₃⟩ := Sys.fork_spends k₂
  have h₁ : Sys.createSession k = (k.verdict .setsid 0, k₁) := h₁
  have h₂ : Sys.setSignal .hangup .ignore k₁ = (k₁.verdict .signal 0, k₂) := h₂
  have hf₃ : k₂.forked 0 = k.forked 0 := (H₁.trans H₂).forked 0
  rw [hs 0 Nat.one_pos] at h₁ H₁
  rw [H₁.grants_of_not_mem (by simp) hg 0 Nat.one_pos] at h₂ H₂
  rw [hf₃, hf] at h₃ H₃
  exact ⟨k₃, by simp [leaveSession, h₁, h₂, h₃], (H₁.trans H₂).trans H₃⟩

/-- What is done after the sweep. -/
theorem start_of_swept {keep : List Fd} {k₁ : Kernel} (h₁ : closeInherited keep k = (.ok (), k₁))
    (B : k₁.BecomesDaemon) :
    ∃ d k', start keep k = (.ok (.daemon d), k') ∧ (k₁.holding d).Spends
      [.pipe, .openNull, .fork, .setsid, .signal, .fork] (departure [] d) k' := by
  have H₂ : k₁.Spends [] [.setUmask umask] (Sys.setUmask umask k₁).2 := .record k₁ rfl
  have hpipe := H₂.grants_of_not_mem List.not_mem_nil (B.grants .pipe 1 (by simp))
  have hnull := H₂.grants_of_not_mem List.not_mem_nil (B.grants .openNull 1 (by simp))
  obtain ⟨d, k₃, h₃, H₃⟩ := prepare_spends hpipe hnull
  have H₃ := (H₂.holding d).trans H₃
  obtain ⟨k₄, h₄, H₄⟩ := Sys.fork_spends k₃
  have hfirst : k₃.forked 0 = .ok 0 := (H₃.forked 0).trans (B.fork 0 Nat.two_pos)
  rw [hfirst] at h₄ H₄
  have H₄ := H₃.trans H₄
  have hsecond : k₄.forked 0 = .ok 0 := (H₄.forked 0).trans (B.fork 1 Nat.one_lt_two)
  have hsession := H₄.grants_of_not_mem (by simp) (B.grants .setsid 1 (by simp))
  have hsignal := H₄.grants_of_not_mem (by simp) (B.grants .signal 1 (by simp))
  obtain ⟨k₅, h₅, H₅⟩ := leaveSession_spends hsession hsignal hsecond d
  exact ⟨d, k₅, by simp [start, h₁, h₃, h₄, h₅], H₄.trans H₅⟩

/-! ## Being ready -/

theorem complain_spends (text : String) (result : Outcome) (k : Kernel) :
    ∃ calls k', complain text result k = ((), k') ∧ k.Spends [] calls k' := by
  rcases result with e | ⟨⟩
  · exact ⟨_, _, rfl, .record k rfl⟩
  · exact ⟨[], k, rfl, .refl k⟩

theorem complain_ok (text : String) (k : Kernel) : complain text (.ok ()) k = ((), k) := rfl

/-- The null device is duplicated to the standard streams, also where it is one of them. -/
theorem duplicate_streams {null : Fd} (hnull : k.descriptors.get? null = some .null)
    (hv : k.Grants .dup2 3) :
    ∃ k₁ k₂ k₃, Sys.duplicate null stdin k = (.ok (), k₁) ∧
      Sys.duplicate null stdout k₁ = (.ok (), k₂) ∧ Sys.duplicate null stderr k₂ = (.ok (), k₃) ∧
      k.muted.Spends [.dup2, .dup2, .dup2] [.duplicate null stdin (.ok ()),
        .duplicate null stdout (.ok ()), .duplicate null stderr (.ok ())] k₃ := by
  have hopened {k : Kernel} (fd : Fd) (h : k.descriptors.get? null = some .null) :
      (k.opened fd .null).descriptors.get? null = some .null := by
    rw [Kernel.opened, Table.get?_insert, h, ite_self]
  obtain ⟨k₁, h₁, H₁⟩ := Sys.duplicate_spends k (hv.mono (by omega)) hnull stdin
  have hv₁ : k₁.Grants .dup2 2 := H₁.grants hv
  have hnull₁ : k₁.descriptors.get? null = some .null := H₁.descriptors ▸ hopened stdin hnull
  obtain ⟨k₂, h₂, H₂⟩ := Sys.duplicate_spends k₁ (hv₁.mono (by omega)) hnull₁ stdout
  have hv₂ : k₂.Grants .dup2 1 := H₂.grants hv₁
  have hnull₂ : k₂.descriptors.get? null = some .null := H₂.descriptors ▸ hopened stdout hnull₁
  obtain ⟨k₃, h₃, H₃⟩ := Sys.duplicate_spends k₂ hv₂ hnull₂ stderr
  exact ⟨k₁, k₂, k₃, h₁, h₂, h₃,
    (((H₁.opened stdout .null).trans H₂).opened stderr .null).trans H₃⟩

theorem detach_spends {d : Daemon} (hnull : k.descriptors.get? d.null = some .null)
    (hne : d.null ≠ d.lifelineWriter) (hv : k.Grants .dup2 3) :
    ∃ spent calls k', detach d k = ((), k') ∧
      ((k.closed d.lifelineWriter).redirected d.null).Spends spent calls k' := by
  obtain ⟨r₁, k₁, h₁, H₁⟩ := Sys.close_spends d.lifelineWriter k
  obtain ⟨told, k₂, h₂, H₂⟩ := complain_spends "failed to cut the lifeline" r₁ k₁
  have H₂ := H₁.trans H₂
  have hnull₂ : k₂.descriptors.get? d.null = some .null := by
    simp [H₂.descriptors, Kernel.closed, hne, hnull]
  obtain ⟨k₃, k₄, k₅, h₃, h₄, h₅, H₅⟩ :=
    duplicate_streams hnull₂ (H₂.grants_of_not_mem (by simp) hv)
  have H₅ := H₂.muted.trans H₅
  have hrun : detach d k =
      (if stderr < d.null then discard (Sys.close d.null) else pure ()) k₅ := by
    simp only [detach, StateM.bind_apply, h₁, h₂, h₃, complain_ok, h₄, h₅]
  unfold Kernel.redirected
  split
  · rename_i h
    obtain ⟨r₆, k₆, h₆, H₆⟩ := Sys.close_spends d.null k₅
    refine ⟨_, _, k₆, ?_, (H₅.closed d.null).trans H₆⟩
    rw [hrun, if_pos h]
    exact congrArg (fun p => ((), p.2)) h₆
  · rename_i h
    exact ⟨_, _, k₅, by rw [hrun, if_neg h]; rfl, H₅⟩

theorem finish_spends {d : Daemon} (hnull : k.descriptors.get? d.null = some .null)
    (hr : d.null ≠ d.lifelineReader) (hw : d.null ≠ d.lifelineWriter) (hg : k.Grants .write 1)
    (hv : k.Grants .dup2 3) :
    ∃ spent calls k', finish d k = (.ok (), k') ∧
      (((k.closed d.lifelineReader).closed d.lifelineWriter).redirected d.null).Spends
        spent calls k' := by
  obtain ⟨r₁, k₁, h₁, H₁⟩ := Sys.close_spends d.lifelineReader k
  obtain ⟨told, k₂, h₂, H₂⟩ :=
    complain_spends "failed to close read end of lifeline in child" r₁ k₁
  have H₂ := H₁.trans H₂
  obtain ⟨k₃, h₃, H₃⟩ :=
    Sys.write_spends k₂ (H₂.grants_of_not_mem (by simp) hg) d.lifelineWriter [1]
  have H₃ := H₂.trans H₃
  have hnull₃ : k₃.descriptors.get? d.null = some .null := by
    simp [H₃.descriptors, Kernel.closed, hr, hnull]
  obtain ⟨spent, calls, k₄, h₄, H₄⟩ :=
    detach_spends hnull₃ hw (H₃.grants_of_not_mem (by simp) hv)
  refine ⟨_, _, k₄, ?_, ((H₃.closed d.lifelineWriter).redirected d.null).trans H₄⟩
  have h : finish d k = (.ok (), (detach d k₃).2) := by
    simp only [finish, detach, StateM.bind_apply, h₁, h₂, h₃]
    split <;> rfl
  rw [h, h₄]

/-! ## What is open -/

/-- The three numbers that a daemon has been given are new. -/
structure Fresh (d : Daemon) (descriptors : Table Resource) : Prop where
  nodup : [d.lifelineReader, d.lifelineWriter, d.null].Nodup
  free : ∀ fd ∈ [d.lifelineReader, d.lifelineWriter, d.null], descriptors.get? fd = none

/-- What is left of a daemon that is ready: what was there before it was given three numbers, and
the null device. -/
theorem get?_settled {d : Daemon} (F : d.Fresh k.descriptors) (fd : Nat) :
    ((((k.holding d).closed d.lifelineReader).closed d.lifelineWriter).redirected
      d.null).descriptors.get? fd = if fd ≤ 2 then some .null else k.descriptors.get? fd := by
  rw [Kernel.get?_redirected]
  by_cases hfd : fd ≤ 2
  · rw [if_pos hfd, if_pos hfd]
  rw [if_neg hfd, if_neg hfd]
  simp only [Kernel.closed, Kernel.holding, Kernel.opened, Table.get?_erase, Table.get?_insert]
  by_cases hheld : fd ∈ [d.lifelineReader, d.lifelineWriter, d.null]
  · rw [F.free fd hheld]
    simp only [List.mem_cons, List.not_mem_nil, or_false] at hheld
    rcases hheld with rfl | rfl | rfl <;> simp
  · simp only [List.mem_cons, List.not_mem_nil, or_false, not_or] at hheld
    simp [hheld]

theorem finish_of_held {d : Daemon} {k₁ k₂ : Kernel} {calls : List Call}
    (H : (k₁.holding d).Spends [.pipe, .openNull, .fork, .setsid, .signal, .fork] calls k₂)
    (B : k₁.BecomesDaemon) (F : d.Fresh k₁.descriptors) :
    ∃ k', finish d k₂ = (.ok (), k') ∧ ∀ fd : Nat, k'.descriptors.get? fd =
      if fd ≤ 2 then some .null else k₁.descriptors.get? fd := by
  have hnull : k₂.descriptors.get? d.null = some .null := by
    simp [H.descriptors, Kernel.holding, Kernel.opened]
  have hdistinct : d.null ≠ d.lifelineReader ∧ d.null ≠ d.lifelineWriter := by
    have hnodup := F.nodup
    grind
  have hwrite := H.grants_of_not_mem (by simp) (B.grants .write 1 (by simp))
  have hdup := H.grants_of_not_mem (by simp) (B.grants .dup2 3 (by simp))
  obtain ⟨spent, calls', k', h, H'⟩ :=
    finish_spends hnull hdistinct.1 hdistinct.2 hwrite hdup
  have H' := (((H.closed d.lifelineReader).closed d.lifelineWriter).redirected d.null).trans H'
  exact ⟨k', h, fun fd => by rw [H'.descriptors, get?_settled F]⟩

/-- What is open in `k'` is what was to be kept of `k`, as it was, and the null device in place of
the standard streams. -/
structure Inherits (k : Kernel) (keep : List Fd) (k' : Kernel) : Prop where
  open_iff (fd : Nat) : k'.descriptors.contains fd ↔ fd ∈ keep ∨ fd ≤ 2
  streams (fd : Nat) (h : fd ≤ 2) : k'.descriptors.get? fd = some .null
  kept (fd : Nat) (h : fd ∈ keep) : k'.descriptors.get? fd = k.descriptors.get? fd

theorem inherits_of_get? {keep : List Fd} {bound : Nat} {k' : Kernel}
    (hkeep : ∀ fd ∈ keep, 2 < fd ∧ k.descriptors.contains fd)
    (hbelow : ∀ fd : Nat, k.descriptors.contains fd → fd < bound)
    (h : ∀ fd : Nat, k'.descriptors.get? fd =
      if fd ≤ 2 then some .null
      else if fd ∈ swept keep bound then none else k.descriptors.get? fd) :
    Inherits k keep k' := by
  have hkept (fd : Nat) (hfd : fd ∈ keep) :
      k'.descriptors.get? fd = k.descriptors.get? fd := by
    have hhigh : ¬fd ≤ 2 := Nat.not_le.2 (hkeep fd hfd).1
    rw [h, if_neg hhigh, if_neg fun hs => (mem_swept.1 hs).2.2 hfd]
  refine ⟨fun fd => ⟨fun hopen => ?_, ?_⟩, fun fd hfd => by rw [h, if_pos hfd], hkept⟩
  · refine Decidable.byContradiction fun hnot => ?_
    obtain ⟨hfd, hhigh⟩ := not_or.1 hnot
    rw [Table.contains, h, if_neg hhigh] at hopen
    split at hopen
    · cases hopen
    · rename_i hs
      exact hs (mem_swept.2 ⟨by omega, hbelow fd hopen, hfd⟩)
  · rintro (hfd | hfd)
    · rw [Table.contains, hkept fd hfd]
      exact (hkeep fd hfd).2
    · rw [Table.contains, h, if_pos hfd]
      rfl

/-- **A daemon inherits what it is to keep, and nothing else.** A sweep closes each number from 3 up
to its bound that is not to be kept, once and in order; if the bound is too low for that, nothing is
closed and there is no daemon. If what is open is below the bound and the calls succeed, there is a
daemon, and once it is ready what was to be kept is open as it was, and so are the standard streams,
as the null device. It does not matter which numbers the daemon has been given on the way, as long
as they were free. -/
theorem daemon_inherits (hl : (Sys.descriptorLimit k).1 = .ok limit) (keep : List Fd) :
    (∀ n, sweepBound (.ofNat n) = if n = 2 ^ 64 - 1 then 2 ^ 20 else min n (2 ^ 31 - 1)) ∧
    (sweepBound limit ≤ 2 → ∃ k', start keep k = (.error (.limitTooLow (sweepBound limit)), k') ∧
      k'.trace = k.trace ∧ k'.descriptors = k.descriptors) ∧
    (2 < sweepBound limit → ∃ (fds : List Fd) (k₁ : Kernel), closeInherited keep k = (.ok (), k₁) ∧
      k₁.trace = k.trace ++ (fds.map Call.close).toArray ∧ fds.Pairwise (· < ·) ∧
      (∀ fd : Nat, fd ∈ fds ↔ 3 ≤ fd ∧ fd < sweepBound limit ∧ fd ∉ keep) ∧
      (k.BecomesDaemon → (∀ fd ∈ keep, 2 < fd ∧ k.descriptors.contains fd) →
        (∀ fd : Nat, k.descriptors.contains fd → fd < sweepBound limit) →
        ∃ d k₂, start keep k = (.ok (.daemon d), k₂) ∧
          k₂.trace = k.trace ++ (departure (fds.map .close) d).toArray ∧
          (d.Fresh k₁.descriptors →
            ∃ k', finish d k₂ = (.ok (), k') ∧ Inherits k keep k'))) := by
  refine ⟨sweepBound_ofNat, fun hb => ?_, fun hb => ?_⟩
  · obtain ⟨k', h, H⟩ := closeInherited_tooLow hl hb keep
    exact ⟨k', by simp [start, h], by simpa using H.trace, H.descriptors⟩
  obtain ⟨k₁, h₁, H₁⟩ := closeInherited_spends hl hb keep
  refine ⟨swept keep (sweepBound limit), k₁, h₁, H₁.trace, swept_ascending .., fun _ => mem_swept,
    fun B hkeep hbelow => ?_⟩
  have B₁ := H₁.becomesDaemon B
  obtain ⟨d, k₂, h₂, H₂⟩ := start_of_swept h₁ B₁
  refine ⟨d, k₂, h₂, ((H₁.holding d).trans H₂).trace, fun F => ?_⟩
  obtain ⟨k', h', hopen⟩ := finish_of_held H₂ B₁ F
  refine ⟨k', h', inherits_of_get? hkeep hbelow fun fd => ?_⟩
  rw [hopen, H₁.descriptors, Kernel.get?_closedAll]

end Daemon

/-- A process without two of the standard streams. One of the others that it has is to be kept, and
its pipe and the null device are given numbers of missing streams. -/
def Kernel.bare : Kernel :=
  ({ descriptors :=
      ((Table.empty.insert 1 .inherited).insert 4 (.socket none true)).insert 6 .inherited }
    : Kernel).force
    [(.getrlimit, [some (.value 8)]), (.pipe, [some (.pair 0 3)]), (.openNull, [some (.value 2)])]

namespace Daemon

/-- The missing streams stand for the null device in the end. -/
theorem daemon_inherits_bare :
    (Sys.descriptorLimit .bare).1 = .ok (.below 8) ∧
      ∃ k₂ k', start [4] .bare = (.ok (.daemon ⟨0, 3, 2⟩), k₂) ∧
        finish ⟨0, 3, 2⟩ k₂ = (.ok (), k') ∧ Inherits .bare [4] k' := by
  have hl : (Sys.descriptorLimit .bare).1 = .ok (.below 8) := rfl
  have B : Kernel.bare.BecomesDaemon := by
    have hgrants : ∀ p ∈ Kernel.becoming, Kernel.bare.Grants p.1 p.2 := by decide
    exact ⟨fun call n h => hgrants (call, n) h, fun i _ => rfl⟩
  have hbelow (fd : Nat) (h : Kernel.bare.descriptors.contains fd) : fd < 8 := by
    have hkeys : ∀ fd ∈ Kernel.bare.descriptors.keys, fd < 8 := by decide
    exact hkeys fd (Table.mem_keys.2 h)
  obtain ⟨fds, k₁, h₁, -, -, -, H⟩ := (daemon_inherits hl [4]).2.2 (by decide)
  obtain ⟨d, k₂, h₂, -, H⟩ := H B (by decide) hbelow
  have hd : (start [4] .bare).1 = .ok (.daemon ⟨0, 3, 2⟩) := by rfl
  rw [h₂] at hd
  cases hd
  have F : Fresh ⟨0, 3, 2⟩ k₁.descriptors := by
    have hk₁ : k₁ = (closeInherited [4] .bare).2 := by rw [h₁]
    subst hk₁
    exact ⟨by decide, by decide⟩
  obtain ⟨k', h', H'⟩ := H F
  exact ⟨hl, k₂, k', h₂, h', H'⟩

end Daemon

end OnePage
