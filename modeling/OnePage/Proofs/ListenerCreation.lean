import OnePage.Proofs.Scripts
import OnePage.Proofs.Startup

/-! # Creating the listener

There is a listener if the host has an IPv4 address and none of four calls is bound to fail, and it
is then the only descriptor that was opened. Otherwise all is as it was: what was opened has been
closed again, and closing it is all that is done once a call has failed (`Listener.Creation`). -/

namespace OnePage

namespace Call

/-- The descriptors that are new with a call. -/
def opens : Call → List Fd
  | socket (.ok fd) => [fd]
  | createQueue (.ok fd) => [fd]
  | accept _ (.ok fd) => [fd]
  | pipe (.ok (reader, writer)) => [reader, writer]
  | openNull (.ok fd) => [fd]
  | _ => []

def closes : Call → List Fd
  | close fd => [fd]
  | _ => []

theorem opens_of_failed {call : Call} (h : call.failed) : call.opens = [] ∧ call.closes = [] := by
  unfold failed at h
  split at h <;> first | exact ⟨rfl, rfl⟩ | cases h

theorem opens_closes (fds : List Fd) :
    (fds.map close).flatMap opens = [] ∧ (fds.map close).flatMap closes = fds := by
  induction fds with
  | nil => exact ⟨rfl, rfl⟩
  | cons fd fds ih =>
    simp only [List.map_cons, List.flatMap_cons, ih.1, ih.2]
    exact ⟨rfl, rfl⟩

end Call

/-- Nothing fails, and what is opened stays open. -/
structure Gains (calls : List Call) (opened : List Fd) : Prop where
  smooth : Smooth calls
  opens : calls.flatMap Call.opens = opened
  closes : calls.flatMap Call.closes = []

namespace Gains
variable {calls more : List Call} {opened opened' : List Fd}

theorem append (H : Gains calls opened) (H' : Gains more opened') :
    Gains (calls ++ more) (opened ++ opened') where
  smooth := (smooth_append _ _).2 ⟨H.smooth, H'.smooth⟩
  opens := by rw [List.flatMap_append, H.opens, H'.opens]
  closes := by rw [List.flatMap_append, H.closes, H'.closes, List.append_nil]

/-- A call fails, and what was opened is closed. -/
theorem closed (H : Gains calls opened) {failing : Call} (hf : failing.failed) :
    (calls ++ failing :: opened.map .close).flatMap Call.opens = opened ∧
      (calls ++ failing :: opened.map .close).flatMap Call.closes = opened := by
  obtain ⟨ho, hc⟩ := Call.opens_of_failed hf
  obtain ⟨ho', hc'⟩ := Call.opens_closes opened
  simp [H.opens, H.closes, ho, hc, ho', hc']

end Gains

/-- What a socket is bound to that is to be bound to an endpoint. -/
def Net.Endpoint.assigned (endpoint : Net.Endpoint) : Net.Endpoint :=
  { endpoint with port := if endpoint.port = 0 then Sys.ephemeralPort else endpoint.port }

namespace Sys
variable {k : Kernel} {fd : Fd} {bound : Option Net.Endpoint} {listening : Bool}

theorem lookup_spends (host : String) (k : Kernel) :
    ∃ r k', lookup host k = (r, k') ∧ k.Spends [] [.lookup host] k' := by
  cases h : k.hosts.find? fun entry => entry.1 == host with
  | none =>
    exact ⟨.error .unknownName, (record (.lookup host) k).2, by simp [lookup, record, h],
      .record k rfl⟩
  | some entry =>
    exact ⟨entry.2, (record (.lookup host) k).2, by simp [lookup, record, h], .record k rfl⟩

theorem socket_spends (k : Kernel) :
    (∃ e k', k.verdict .socket 0 = .error e ∧ socket k = (.error e, k') ∧
      k.Spends [.socket] [.socket (.error e)] k') ∨
    ∃ fd k', k.verdict .socket 0 = .ok () ∧ socket k = (.ok fd, k') ∧
      k.descriptors.get? fd = none ∧
      (k.opened fd (.socket none false)).Spends [.socket] [.socket (.ok fd)] k' := by
  obtain ⟨k₁, h, H⟩ := reply_spends .socket k
  by_cases hr : ∃ e, k.laid .socket 0 = some (.fails e)
  · obtain ⟨e, hr⟩ := hr
    rw [hr] at h
    exact .inl ⟨e, _, by simp [Kernel.verdict, hr], by simp [socket, h], H.trans (.record k₁ rfl)⟩
  · let fd := k₁.descriptors.firstFree k₁.floor
    have hfree : k.descriptors.get? fd = none := by
      rw [← H.descriptors]
      exact Table.get?_firstFree ..
    have hopened : k.verdict .socket 0 = .ok () ∧ socket k =
        (.ok fd, (record (.socket (.ok fd)) (k₁.opened fd (.socket none false))).2) := by
      simp only [Kernel.verdict, socket, StateM.bind_apply, h]
      rcases hl : k.laid .socket 0 with _ | r
      · exact ⟨rfl, rfl⟩
      · cases r with
        | fails e => exact absurd ⟨e, hl⟩ hr
        | _ => exact ⟨rfl, rfl⟩
    exact .inr ⟨fd, _, hopened.1, hopened.2, hfree, (H.opened fd _).trans (.record _ rfl)⟩

theorem updateSocket_eq (h : k.descriptors.get? fd = some (.socket bound listening))
    (change : Option Net.Endpoint → Bool → Resource) :
    updateSocket fd change k = ((), k.opened fd (change bound listening)) := by
  simp [updateSocket, h, Kernel.opened]

/-- A call that changes a socket, if it succeeds. -/
theorem updated_spends (call : SystemCall) (entry : Outcome → Call)
    (hentry : ∀ r, (entry r).isLog = false)
    (h : k.descriptors.get? fd = some (.socket bound listening))
    (change : Option Net.Endpoint → Bool → Resource) :
    ∃ k', (do
      let result ← outcome call
      record (entry result)
      if result.isOk then updateSocket fd change
      return result : Sys Outcome) k = (k.verdict call 0, k') ∧
      (k.onSuccess (k.verdict call 0) (·.opened fd (change bound listening))).Spends [call]
        [entry (k.verdict call 0)] k' := by
  obtain ⟨k₁, h₁, H₁⟩ := outcome_spends call k
  have H := H₁.trans (.record k₁ (hentry (k.verdict call 0)))
  rcases hv : k.verdict call 0 with e | ⟨⟩ <;> rw [hv] at h₁ H
  · exact ⟨_, by simp [h₁, Except.isOk, Except.toBool], H⟩
  · have hu := updateSocket_eq (H.descriptors ▸ h) change
    exact ⟨_, by simp [h₁, Except.isOk, Except.toBool, hu], H.opened fd (change bound listening)⟩

theorem bind_spends (h : k.descriptors.get? fd = some (.socket bound listening))
    (endpoint : Net.Endpoint) :
    ∃ k', bind fd endpoint k = (k.verdict .bind 0, k') ∧
      (k.onSuccess (k.verdict .bind 0)
        (·.opened fd (.socket (some endpoint.assigned) listening))).Spends [.bind]
          [.bind fd endpoint (k.verdict .bind 0)] k' :=
  updated_spends .bind (.bind fd endpoint) (fun _ => rfl) h fun _ listening =>
    .socket (some endpoint.assigned) listening

theorem listen_spends (h : k.descriptors.get? fd = some (.socket bound listening))
    (backlog : Nat) :
    ∃ k', listen fd backlog k = (k.verdict .listen 0, k') ∧
      (k.onSuccess (k.verdict .listen 0) (·.opened fd (.socket bound true))).Spends [.listen]
        [.listen fd backlog (k.verdict .listen 0)] k' :=
  updated_spends .listen (.listen fd backlog) (fun _ => rfl) h fun bound _ => .socket bound true

end Sys

namespace Listener

/-! ## The address to listen on -/

/-- The address to listen on: any if there is no host, and else the first IPv4 address among those
of the host. -/
inductive Target (k : Kernel) : Option String → Net.IPv4 → Prop
  | wildcard : Target k none .unspecified
  | first {host : String} {before after : List Net.Address} {ip : Net.IPv4}
    (h : (addresses host k).1 = .ok (before ++ .v4 ip :: after))
    (hb : ∀ address ∈ before, ∃ groups, address = .v6 groups) : Target k (some host) ip

/-- Nothing is done but to look names up. -/
def LooksUp (calls : List Call) : Prop := ∀ call ∈ calls, ∃ host, call = .lookup host

theorem ipv4?_eq_some {address : Net.Address} {ip : Net.IPv4} :
    address.ipv4? = some ip ↔ address = .v4 ip := by
  cases address <;> simp [Net.Address.ipv4?]

theorem ipv4?_eq_none {address : Net.Address} :
    address.ipv4? = none ↔ ∃ groups, address = .v6 groups := by
  cases address <;> simp [Net.Address.ipv4?]

theorem findSome?_ipv4? {list : List Net.Address} {ip : Net.IPv4} :
    list.findSome? Net.Address.ipv4? = some ip ↔
      ∃ before after, list = before ++ .v4 ip :: after ∧
        ∀ address ∈ before, ∃ groups, address = .v6 groups := by
  simp only [List.findSome?_eq_some_iff, ipv4?_eq_some, ipv4?_eq_none]
  constructor
  · rintro ⟨before, _, after, h, rfl, hb⟩
    exact ⟨before, after, h, hb⟩
  · rintro ⟨before, after, h, hb⟩
    exact ⟨before, _, after, h, rfl, hb⟩

variable {k : Kernel}

theorem target_some_iff {host : String} {ip : Net.IPv4} :
    Target k (some host) ip ↔ ∃ list, (addresses host k).1 = .ok list ∧
      list.findSome? Net.Address.ipv4? = some ip := by
  constructor
  · rintro ⟨⟩
    rename_i before after hb h
    exact ⟨_, h, findSome?_ipv4?.2 ⟨before, after, rfl, hb⟩⟩
  · rintro ⟨list, h, hf⟩
    obtain ⟨before, after, rfl, hb⟩ := findSome?_ipv4?.1 hf
    exact .first h hb

theorem addresses_spends (host : String) (k : Kernel) :
    ∃ r calls k', addresses host k = (r, k') ∧ k.Spends [] calls k' ∧ LooksUp calls := by
  cases ht : Net.Address.ofText? host with
  | some address =>
    exact ⟨.ok [address], [], k, by simp [addresses, ht], .refl k, List.forall_mem_nil _⟩
  | none =>
    by_cases hn : Char.ofNat 0 ∈ host.toList
    · exact ⟨.error (.nulInHostname host), [], k, by simp [addresses, ht, hn], .refl k,
        List.forall_mem_nil _⟩
    · obtain ⟨r, k', h, H⟩ := Sys.lookup_spends host k
      exact ⟨r.mapError (.lookup host), _, k', by simp [addresses, ht, hn, h], H,
        List.forall_mem_singleton.2 ⟨host, rfl⟩⟩

/-- A host is found, with an address to listen on, or it is not. -/
theorem resolve_spends (hostname : Option String) (port : Nat) (k : Kernel) :
    ∃ calls k', k.Spends [] calls k' ∧ LooksUp calls ∧
      ((∃ ip, Target k hostname ip ∧ resolve hostname port k = (.ok ⟨ip, port⟩, k')) ∨
        (∀ ip, ¬Target k hostname ip) ∧ ∃ e, resolve hostname port k = (.error e, k')) := by
  cases hostname with
  | none =>
    exact ⟨[], k, .refl k, List.forall_mem_nil _, .inl ⟨.unspecified, .wildcard, rfl⟩⟩
  | some host =>
    obtain ⟨r, calls, k', h, H, hcalls⟩ := addresses_spends host k
    have ha : (addresses host k).1 = r := congrArg Prod.fst h
    refine ⟨calls, k', H, hcalls, ?_⟩
    rcases r with e | list
    · refine .inr ⟨fun ip ht => ?_, e, by simp [resolve, h]⟩
      obtain ⟨list, hl, -⟩ := target_some_iff.1 ht
      cases ha.symm.trans hl
    cases hf : list.findSome? Net.Address.ipv4? with
    | some ip =>
      exact .inl ⟨ip, target_some_iff.2 ⟨list, ha, hf⟩, by simp [resolve, h, hf]⟩
    | none =>
      refine .inr ⟨fun ip ht => ?_, .noIPv4 host, by simp [resolve, h, hf]⟩
      obtain ⟨_, hl, hs⟩ := target_some_iff.1 ht
      cases ha.symm.trans hl
      cases hf.symm.trans hs

/-! ## The calls -/

/-- The calls that make a new socket listen. -/
def preparing : List SystemCall := [.setsockopt, .bind, .listen]

/-- The calls that make the listener, once there is an address. -/
def creating : List SystemCall := .socket :: preparing

/-- How a new socket is made to listen. -/
inductive Preparation (k : Kernel) (fd : Fd) (endpoint : Net.Endpoint) :
    Except ListenError Unit → List Call → Kernel → Prop
  | refused {e : ListenError} {made : List Call} {failing : Call} {k' : Kernel}
    (hc : ∃ call ∈ preparing, k.verdict call 0 ≠ .ok ()) (H : Gains made [])
    (hf : failing.failed) (hd : k'.descriptors.erase fd = k.descriptors.erase fd) :
    Preparation k fd endpoint (.error e) (made ++ [failing]) k'
  | done {k' : Kernel} (hc : ∀ call ∈ preparing, k.verdict call 0 = .ok ())
    (hd : k'.descriptors =
      k.descriptors.insert fd (.socket (some endpoint.assigned) true)) :
    Preparation k fd endpoint (.ok ()) [.reuseAddress fd (.ok ()), .bind fd endpoint (.ok ()),
      .listen fd backlog (.ok ())] k'

theorem prepare_preparation {fd : Fd} (h : k.descriptors.get? fd = some (.socket none false))
    (endpoint : Net.Endpoint) :
    ∃ r calls k', prepare fd endpoint k = (r, k') ∧ k'.trace = k.trace ++ calls.toArray ∧
      Preparation k fd endpoint r calls k' := by
  obtain ⟨k₁, h₁, H₁⟩ := Sys.recorded_spends .setsockopt (.reuseAddress fd) (fun _ => rfl) k
  have h₁ : Sys.reuseAddress fd k = (k.verdict .setsockopt 0, k₁) := h₁
  rcases hv₁ : k.verdict .setsockopt 0 with e | ⟨⟩ <;> rw [hv₁] at h₁ H₁
  · have G : Gains [] [] := ⟨smooth_nil, rfl, rfl⟩
    exact ⟨.error (.reuseAddress e), _, k₁, by simp [prepare, h₁], H₁.trace,
      .refused ⟨.setsockopt, by simp [preparing], by simp [hv₁]⟩ G rfl (by rw [H₁.descriptors])⟩
  have hget₁ : k₁.descriptors.get? fd = some (.socket none false) := H₁.descriptors ▸ h
  have hbind : k₁.verdict .bind 0 = k.verdict .bind 0 := H₁.verdict_of_not_mem (by simp)
  obtain ⟨k₂, h₂, H₂⟩ := Sys.bind_spends hget₁ endpoint
  rw [hbind] at h₂ H₂
  rcases hv₂ : k.verdict .bind 0 with e | ⟨⟩ <;> rw [hv₂] at h₂ H₂
  · have H := H₁.trans H₂
    have G : Gains [.reuseAddress fd (.ok ())] [] := ⟨by simp [Call.failed], rfl, rfl⟩
    exact ⟨.error (.bind endpoint e), _, k₂, by simp [prepare, h₁, h₂], H.trace,
      .refused ⟨.bind, by simp [preparing], by simp [hv₂]⟩ G rfl (by rw [H.descriptors])⟩
  have H := (H₁.opened fd (.socket (some endpoint.assigned) false)).trans H₂
  have hget₂ : k₂.descriptors.get? fd = some (.socket (some endpoint.assigned) false) := by
    simp [H.descriptors, Kernel.opened]
  have hlisten : k₂.verdict .listen 0 = k.verdict .listen 0 := H.verdict_of_not_mem (by simp)
  obtain ⟨k₃, h₃, H₃⟩ := Sys.listen_spends hget₂ backlog
  rw [hlisten] at h₃ H₃
  have hrun : prepare fd endpoint k =
      ((k.verdict .listen 0).mapError (.listen endpoint), k₃) := by simp [prepare, h₁, h₂, h₃]
  rcases hv₃ : k.verdict .listen 0 with e | ⟨⟩ <;> rw [hv₃] at hrun H₃
  · have H' := H.trans H₃
    have G : Gains [.reuseAddress fd (.ok ()), .bind fd endpoint (.ok ())] [] :=
      ⟨by simp [Call.failed], rfl, rfl⟩
    refine ⟨.error (.listen endpoint e), _, k₃, hrun, H'.trace,
      .refused ⟨.listen, by simp [preparing], by simp [hv₃]⟩ G rfl ?_⟩
    rw [H'.descriptors]
    exact Table.erase_insert ..
  · have H' := (H.opened fd (.socket (some endpoint.assigned) true)).trans H₃
    refine ⟨.ok (), _, k₃, hrun, H'.trace, .done (by simp [preparing, hv₁, hv₂, hv₃]) ?_⟩
    rw [H'.descriptors]
    exact Table.insert_insert ..

/-! ## All or nothing -/

/-- What creating a listener comes to. -/
inductive Creation (k : Kernel) (hostname : Option String) (port : Nat) :
    Except ListenError Fd → List Call → Kernel → Prop
  /-- There is no address. -/
  | unresolved {e : ListenError} {calls : List Call} {k' : Kernel}
    (ht : ∀ ip, ¬Target k hostname ip) (hcalls : LooksUp calls)
    (hd : k'.descriptors = k.descriptors) : Creation k hostname port (.error e) calls k'
  /-- A call fails. All that is done after it is to close what was opened. -/
  | refused {e : ListenError} {made : List Call} {failing : Call} {opened : List Fd} {k' : Kernel}
    (ht : ∃ ip, Target k hostname ip) (hc : ∃ call ∈ creating, k.verdict call 0 ≠ .ok ())
    (hs : Smooth made) (hf : failing.failed) (hd : opened.Nodup)
    (ho : (made ++ failing :: opened.map .close).flatMap Call.opens = opened)
    (hn : (made ++ failing :: opened.map .close).flatMap Call.closes = opened)
    (hk : k'.descriptors = k.descriptors) :
    Creation k hostname port (.error e) (made ++ failing :: opened.map .close) k'
  | listening {ip : Net.IPv4} {fd : Fd} {calls : List Call} {k' : Kernel}
    (ht : Target k hostname ip) (hc : ∀ call ∈ creating, k.verdict call 0 = .ok ())
    (hfree : k.descriptors.get? fd = none) (H : Gains calls [fd])
    (hbind : .bind fd ⟨ip, port⟩ (.ok ()) ∈ calls) (hlisten : .listen fd backlog (.ok ()) ∈ calls)
    (hk : k'.descriptors =
      k.descriptors.insert fd (.socket (some (Net.Endpoint.assigned ⟨ip, port⟩)) true)) :
    Creation k hostname port (.ok fd) calls k'

theorem LooksUp.gains {calls : List Call} (H : LooksUp calls) : Gains calls [] := by
  refine ⟨fun call hcall => ?_, List.flatMap_eq_nil_iff.2 fun call hcall => ?_,
    List.flatMap_eq_nil_iff.2 fun call hcall => ?_⟩ <;>
  · obtain ⟨host, rfl⟩ := H call hcall
    rfl

theorem Creation.ok_iff {hostname : Option String} {port : Nat} {r : Except ListenError Fd}
    {calls : List Call} {k' : Kernel} (H : Creation k hostname port r calls k') :
    (∃ fd, r = .ok fd) ↔
      (∃ ip, Target k hostname ip) ∧ ∀ call ∈ creating, k.verdict call 0 = .ok () := by
  cases H with
  | unresolved ht => exact ⟨nofun, fun ⟨⟨ip, h⟩, _⟩ => absurd h (ht ip)⟩
  | refused _ hc =>
    obtain ⟨call, hcall, h⟩ := hc
    exact ⟨nofun, fun ⟨_, hok⟩ => absurd (hok call hcall) h⟩
  | listening ht hc => exact ⟨fun _ => ⟨⟨_, ht⟩, hc⟩, fun _ => ⟨_, rfl⟩⟩

/-- What comes of a new socket: it is made to listen, or it is closed. -/
theorem creation_of_socket {hostname : Option String} {port : Nat} {ip : Net.IPv4} {fd : Fd}
    {spent : List SystemCall} {before : List Call} {k₁ : Kernel} (ht : Target k hostname ip)
    (hv : k.verdict .socket 0 = .ok ()) (hfree : k.descriptors.get? fd = none)
    (H : (k.opened fd (.socket none false)).Spends spent before k₁)
    (hspent : ∀ call ∈ preparing, call ∉ spent) (G : Gains before [fd])
    (hrun : ∀ r k₂, prepare fd ⟨ip, port⟩ k₁ = (r, k₂) → create hostname port k =
      match r with
      | .error e => (.error e, (Sys.close fd k₂).2)
      | .ok () => (.ok fd, k₂)) :
    ∃ r calls k', create hostname port k = (r, k') ∧ k'.trace = k.trace ++ calls.toArray ∧
      Creation k hostname port r calls k' := by
  have hget : k₁.descriptors.get? fd = some (.socket none false) := by
    simp [H.descriptors, Kernel.opened]
  have hverdict (call : SystemCall) (hcall : call ∈ preparing) :
      k₁.verdict call 0 = k.verdict call 0 := H.verdict_of_not_mem (hspent call hcall)
  obtain ⟨r, calls, k₂, h₂, ht₂, P⟩ := prepare_preparation hget ⟨ip, port⟩
  have htrace : k₂.trace = k.trace ++ (before ++ calls).toArray := by
    rw [ht₂, H.trace]
    simp [Kernel.opened]
  cases P with
  | @refused e made failing _ hc G' hf hd =>
    obtain ⟨r₃, k₃, h₃, H₃⟩ := Sys.close_spends fd k₂
    have G := G.append G'
    obtain ⟨ho, hn⟩ := G.closed hf
    refine ⟨.error e, before ++ made ++ failing :: [fd].map .close, k₃, ?_, ?_,
      .refused ⟨ip, ht⟩ ?_ G.smooth hf (List.nodup_cons.2 ⟨by simp, List.nodup_nil⟩) ho hn ?_⟩
    · rw [hrun _ k₂ h₂, h₃]
    · rw [H₃.trace]
      simp [Kernel.closed, htrace]
    · obtain ⟨call, hcall, hne⟩ := hc
      exact ⟨call, List.mem_cons_of_mem _ hcall, hverdict call hcall ▸ hne⟩
    · calc k₃.descriptors
          = k₁.descriptors.erase fd := H₃.descriptors.trans hd
        _ = k.descriptors.erase fd := by rw [H.descriptors]; exact Table.erase_insert ..
        _ = k.descriptors := Table.erase_eq_self hfree
  | done hc hd =>
    refine ⟨.ok fd, _, k₂, hrun _ k₂ h₂, htrace,
      .listening ht ?_ hfree (G.append ⟨by simp [Call.failed], rfl, rfl⟩) (by simp) (by simp) ?_⟩
    · refine List.forall_mem_cons.2 ⟨hv, fun call hcall => ?_⟩
      exact (hverdict call hcall).symm.trans (hc call hcall)
    · rw [hd, H.descriptors]
      exact Table.insert_insert ..

theorem exists_creation (hostname : Option String) (port : Nat) (k : Kernel) :
    ∃ r calls k', create hostname port k = (r, k') ∧ k'.trace = k.trace ++ calls.toArray ∧
      Creation k hostname port r calls k' := by
  obtain ⟨calls₁, k₁, H₁, hlook, ⟨ip, ht, h₁⟩ | ⟨ht, e, h₁⟩⟩ := resolve_spends hostname port k
  case inr =>
    exact ⟨.error e, calls₁, k₁, by simp [create, h₁], H₁.trace,
      .unresolved ht hlook H₁.descriptors⟩
  have hverdict : k₁.verdict .socket 0 = k.verdict .socket 0 :=
    H₁.verdict_of_not_mem List.not_mem_nil
  obtain ⟨e, k₂, hv, h₂, H₂⟩ | ⟨fd, k₂, hv, h₂, hfree, H₂⟩ := Sys.socket_spends k₁
  · have hrefused : k.verdict .socket 0 ≠ .ok () := by
      rw [← hverdict, hv]
      intro h
      cases h
    obtain ⟨ho, hn⟩ := hlook.gains.closed (rfl : Call.failed (.socket (.error e)))
    exact ⟨.error (.socket e), _, k₂, by simp [create, h₁, h₂], (H₁.trans H₂).trace,
      .refused ⟨ip, ht⟩ ⟨.socket, List.mem_cons_self, hrefused⟩ hlook.gains.smooth rfl
        List.nodup_nil ho hn (H₁.trans H₂).descriptors⟩
  · refine creation_of_socket ht (hverdict.symm.trans hv) (H₁.descriptors ▸ hfree)
      ((H₁.opened fd (.socket none false)).trans H₂) (by simp [preparing])
      (hlook.gains.append ⟨by simp [Call.failed], rfl, rfl⟩) fun r k₃ h₃ => ?_
    rcases r with e | ⟨⟩ <;> simp [create, h₁, h₂, h₃]

/-- **Creating the listener is all or nothing.** Whatever the host resolves to and whatever comes
of the calls, there is a listener just if there is an IPv4 address and no call fails; it is then the
only descriptor that was opened, and is bound to the first such address with the port that was
asked for. Otherwise no call is made after the one that failed but to close what was opened, once,
and the descriptors are what they were. -/
theorem creation_all_or_nothing (hostname : Option String) (port : Nat) (k : Kernel) :
    ∃ r calls k', create hostname port k = (r, k') ∧ k'.trace = k.trace ++ calls.toArray ∧
      ((∃ fd, r = .ok fd) ↔
        (∃ ip, Target k hostname ip) ∧ ∀ call ∈ creating, k.verdict call 0 = .ok ()) ∧
      Creation k hostname port r calls k' := by
  obtain ⟨r, calls, k', h, ht, H⟩ := exists_creation hostname port k
  exact ⟨r, calls, k', h, ht, H.ok_iff, H⟩

example : (create none 80 (({} : Kernel).force [(.bind, [some (.fails .EADDRINUSE)])])).1 =
    .error (.bind ⟨.unspecified, 80⟩ .EADDRINUSE) := rfl

end Listener

end OnePage
