import Nfs3.Proofs.Client.Ledger
import Nfs3.Proofs.Client.Retry

/-!
The attempts of logical calls, in any run of any number of callers at their jobs. Ids tell calls
apart, and all attempts of a call are alike but for a move to privileged ports.
-/
namespace Nfs3.Client
open Rpc Wire
variable {ι κ : Type} [DecidableEq ι] [DecidableEq κ] {start : Clients κ}
  {owns : ι → LogicalCall κ → Prop} {calls : Nat → Option (LogicalCall κ)}
  {past log : History ι (Clients κ)} {l : Line κ}

namespace Ledger

theorem of_suffix (h : Ledger owns start calls log) (hs : past <:+ log) :
    Ledger owns start calls past := fun d before hd => h d before (hd.trans hs)

theorem survives (h : Ledger owns start calls log) {P : Clients κ → Prop} (hs : past <:+ log)
    (hp : P (past.state start)) (hc : ∀ f i before, ⟨i, .update f, ()⟩ :: before <:+ log →
      past <:+ before → Change f → P (History.state start before) →
      P (f (History.state start before))) : P (log.state start) := by
  refine History.survives hs hp fun d before hd hb hbefore => ?_
  have ha := h d before hd
  obtain ⟨i, a, r⟩ := d
  cases a with
  | update f => exact hc f i before hd hb ha hbefore
  | _ => exact hbefore

theorem ready (h : Ledger owns start calls log) (hs : past <:+ log)
    (hr : l.Ready (past.state start)) : l.Ready (log.state start) :=
  h.survives (P := fun s => l.Ready s) hs hr fun _ _ _ _ _ hf hr => (Line.survives hf hr).1

theorem steady (h : Ledger owns start calls log) (hs : past <:+ log)
    (hr : l.Ready (past.state start)) :
    (l.part.get (log.state start)).server = (l.part.get (past.state start)).server ∧
      (l.part.get (log.state start)).hashing = (l.part.get (past.state start)).hashing ∧
      (l.part.get (log.state start)).timeout = (l.part.get (past.state start)).timeout := by
  let d := l.part.get (past.state start)
  let P (s : Clients κ) : Prop := l.Ready s ∧ (l.part.get s).server = d.server ∧
    (l.part.get s).hashing = d.hashing ∧ (l.part.get s).timeout = d.timeout
  have hp : P (past.state start) := ⟨hr, rfl, rfl, rfl⟩
  refine (h.survives (P := P) hs hp fun f _ _ _ _ hf hb => ?_).2
  obtain ⟨hr, hserver, hhashing, htimeout⟩ := hb
  obtain ⟨hr', hv⟩ := Line.survives hf hr
  exact ⟨hr', hv.server.trans hserver, hv.hashing.trans hhashing, hv.timeout.trans htimeout⟩

theorem address (h : Ledger owns start calls log) (hs : past <:+ log)
    (hr : l.Ready (past.state start)) (hu : History.Untouched l.SetsPort past log) :
    (l.part.get (log.state start)).pool = (l.part.get (past.state start)).pool ∧
      (l.part.get (log.state start)).port = (l.part.get (past.state start)).port := by
  let d := l.part.get (past.state start)
  let P (s : Clients κ) : Prop := l.Ready s ∧ (l.part.get s).pool = d.pool ∧
    (l.part.get s).port = d.port
  have hp : P (past.state start) := ⟨hr, rfl, rfl⟩
  refine (h.survives (P := P) hs hp fun f i before hf ha hc hb => ?_).2
  obtain ⟨hr, hpool, hport⟩ := hb
  obtain ⟨hr', hv⟩ := Line.survives hc hr
  obtain ⟨hpool', hport'⟩ := hv.address (hu i f before hf ha)
  exact ⟨hr', hpool'.trans hpool, hport'.trans hport⟩

theorem uses (h : Ledger owns start calls log) (hs : past <:+ log)
    (hr : l.Ready (past.state start)) (hu : History.Untouched l.SetsPrivileged past log)
    {n : UInt32} (hn : (l.part.get (past.state start)).usesPrivilegedPort n = true) :
    (l.part.get (log.state start)).usesPrivilegedPort n = true := by
  let P (s : Clients κ) : Prop := l.Ready s ∧ (l.part.get s).usesPrivilegedPort n = true
  have hp : P (past.state start) := ⟨hr, hn⟩
  refine (h.survives (P := P) hs hp fun f i before hf ha hc hb => ?_).2
  obtain ⟨hr, hn⟩ := hb
  obtain ⟨hr', hv⟩ := Line.survives hc hr
  refine ⟨hr', ?_⟩
  have hprivileged := hv.privileged (hu i f before hf ha)
  simp only [Dispatcher.usesPrivilegedPort, Bool.or_eq_true, List.contains_iff_mem] at hn ⊢
  exact hn.imp (fun hp => hprivileged.trans hp) fun hm => hv.escalated hm

end Ledger

theorem Dispatcher.callOnce_eq {Args Reply : Type} {p : Procedure Args Reply} {r : Request Args}
    {segments : UInt32 → List Bytes} (h : ∀ stamp, r.segments p stamp = .ok (segments stamp))
    (host : String) (privileged : Bool) :
    callOnce p r host privileged = (do
      let stamp ← Task.lift .timestamp
      let d ← Task.lift .inspect
      match ← Task.lift (.send ⟨host, d.port, privileged, segments stamp, d.timeout⟩) with
      | .error cause => throw (.network d.server p.name cause)
      | .ok reply => Task.ofExcept (r.readReply p d.server reply)) := by
  unfold callOnce
  simp only [h]
  rfl

namespace Attempt
open History
variable {a b : Attempt log} {c : LogicalCall κ} {first : UInt32}

structure Of (owns : ι → LogicalCall κ → Prop) (start : Clients κ) (first : UInt32)
    (calls : Nat → Option (LogicalCall κ)) (a : Attempt log) (c : LogicalCall κ) : Prop where
  ledger : Ledger owns start calls log
  call : calls a.origin.length = some c
  owned : owns a.caller c
  xid : c.request.xid = first + UInt32.ofNat a.origin.drawn
  admitted : ∃ g, Tracks start calls a.caller a.origin g ∧ c.Admitted g
  attempted : ∃ g, Tracks start calls a.caller a.past g ∧ c.Attempted g a.message

theorem exists_of (hl : Ledger owns start calls log)
    (hf : ∀ d past, d :: past <:+ log → Deed.Fits start first past d) (a : Attempt log) :
    ∃ c, a.Of owns start first calls c := by
  obtain ⟨g, c, hg, hc, ha⟩ := hl _ _ a.sent
  obtain ⟨x, hx⟩ := a.draw
  have hd := hx.trans a.past_suffix
  obtain ⟨g', c', hg', hc', hown, hxid, had⟩ := hl _ _ hd
  have hcall : g.call = calls a.origin.length := by rw [hg.call, a.drawn, Option.bind_some]
  rw [hc, hc'] at hcall
  cases hcall
  exact ⟨c, hl, hc', hown, hxid.trans (hf _ _ hd), ⟨g', hg', had⟩, ⟨g, hg, ha⟩⟩

namespace Of
variable (h : a.Of owns start first calls c)
include h

theorem unique {c' : LogicalCall κ} (h' : b.Of owns start first calls c')
    (ho : a.origin = b.origin) : c = c' := by
  have hc := h.call
  rw [ho, h'.call] at hc
  exact (Option.some.inj hc).symm

theorem message_xid : a.message.xid = first + UInt32.ofNat a.origin.drawn := by
  obtain ⟨-, -, ⟨stamp, hs⟩, -⟩ := h.attempted
  rw [(Request.reads c.uniform hs).1, h.xid]

theorem ready : c.line.Ready (a.origin.state start) := by
  obtain hd | ⟨d, server, hline⟩ := c.line.direct_or_lookup
  · exact hd.ready _
  obtain ⟨g, hg, had⟩ := h.admitted
  have hl := h.ledger.of_suffix (a.origin_suffix.trans a.past_suffix)
  obtain ⟨s, hs, hr⟩ | ⟨fresh, hm⟩ := had.ready d server hline
  · obtain ⟨past, hp, rfl⟩ := hg.seen s hs
    exact hl.ready hp.suffix hr
  · obtain ⟨past, hp⟩ := hg.made _ hm
    refine hl.ready hp.suffix ?_
    have hget := d.get_modify d (fun m => m.store server (fresh m)) (state start past)
    rw [if_pos rfl] at hget
    rw [hline]
    change (d.part.get (d.part.modify _ (state start past))).known server ≠ none
    rw [hget]
    exact Portmapper.known_store_self _ _ _

theorem ready_at {past : History ι (Clients κ)} (ho : a.origin <:+ past) (hs : past <:+ log) :
    c.line.Ready (state start past) :=
  (h.ledger.of_suffix hs).ready ho h.ready

theorem timeout_eq : a.message.timeout = (c.dispatcher (a.origin.state start)).timeout := by
  obtain ⟨g, hg, -, -, ⟨s, hs, -, ht⟩, -⟩ := h.attempted
  obtain ⟨past, hp, rfl⟩ := hg.seen s hs
  have hl := h.ledger.of_suffix (hp.suffix.trans a.past_suffix)
  exact ht.trans (hl.steady (origin_suffix_of_recent hp) h.ready).2.2

theorem address (hu : Untouched c.line.SetsPort a.origin a.past) :
    (c.dispatcher (a.origin.state start)).chooseHost c.request.routingKey = .ok a.message.host ∧
      a.message.port = (c.dispatcher (a.origin.state start)).port := by
  let d := c.dispatcher (a.origin.state start)
  have same {past : History ι (Clients κ)} (hp : Recent a.caller past a.past) :
      (c.dispatcher (state start past)).server = d.server ∧
      (c.dispatcher (state start past)).hashing = d.hashing ∧
      (c.dispatcher (state start past)).pool = d.pool ∧
      (c.dispatcher (state start past)).port = d.port := by
    have ho : a.origin <:+ past := origin_suffix_of_recent hp
    have hl := h.ledger.of_suffix (hp.suffix.trans a.past_suffix)
    obtain ⟨hserver, hhashing, -⟩ := hl.steady ho h.ready
    exact ⟨hserver, hhashing,
      hl.address ho h.ready (hu.of_suffix List.suffix_rfl hp.suffix)⟩
  obtain ⟨g, hg, -, ⟨s, hs, hh⟩, ⟨s', hs', hport, -⟩, -⟩ := h.attempted
  obtain ⟨past, hp, rfl⟩ := hg.seen s hs
  obtain ⟨past', hp', rfl⟩ := hg.seen s' hs'
  obtain ⟨hserver, hhashing, hpool, -⟩ := same hp
  exact ⟨(Dispatcher.chooseHost_congr hserver hhashing hpool _).symm.trans hh,
    hport.trans (same hp').2.2.2⟩

theorem uses (hu : Untouched c.line.SetsPrivileged a.origin a.past)
    (hp : a.message.privileged = true) :
    (c.dispatcher (a.past.state start)).usesPrivilegedPort c.procedure.number = true := by
  obtain ⟨g, hg, -, -, -, ⟨s, hs, hflag⟩ | ⟨-, hm⟩⟩ := h.attempted
  · obtain ⟨past, hr, rfl⟩ := hg.seen s hs
    have ho : a.origin <:+ past := origin_suffix_of_recent hr
    have hl := h.ledger.of_suffix a.past_suffix
    exact hl.uses hr.suffix (h.ready_at ho (hr.suffix.trans a.past_suffix))
      (hu.of_suffix ho List.suffix_rfl) (hflag.symm.trans hp)
  · obtain ⟨past, hr⟩ := hg.made _ hm
    let step : Deed ι (Clients κ) := ⟨a.caller, .update c.escalation, ()⟩
    have ho : a.origin <:+ past := by
      obtain ⟨x, hx⟩ := a.draw
      obtain hs | hs := List.suffix_cons_iff.1 (hr.after hx rfl rfl)
      · cases hs
      · exact (List.suffix_cons _ _).trans hs
    have hpast : past <:+ a.past := (List.suffix_cons step past).trans hr.suffix
    have hready := h.ready_at ho (hpast.trans a.past_suffix)
    obtain ⟨hready', hget⟩ := Line.get_modify hready c.line (·.escalate c.procedure.number)
    rw [if_pos rfl] at hget
    have hn : (c.line.part.get (History.state start (step :: past))).usesPrivilegedPort
        c.procedure.number = true := by
      change (c.line.part.get (c.line.part.modify _ (state start past))).usesPrivilegedPort _ = true
      rw [hget, Dispatcher.usesPrivilegedPort_escalate]
    have hl := h.ledger.of_suffix a.past_suffix
    exact hl.uses hr.suffix hready'
      (hu.of_suffix (ho.trans (List.suffix_cons step past)) List.suffix_rfl) hn

theorem privileged_of_uses (before : History ι (Clients κ)) (ho : a.origin <:+ before)
    (hb : ∀ past, Recent a.caller past a.past → before <:+ past)
    (hu : Untouched c.line.SetsPrivileged a.origin a.past)
    (hn : (c.dispatcher (before.state start)).usesPrivilegedPort c.procedure.number = true) :
    a.message.privileged = true := by
  obtain ⟨g, hg, -, -, -, ⟨s, hs, hflag⟩ | ⟨hp, -⟩⟩ := h.attempted
  · obtain ⟨past, hr, rfl⟩ := hg.seen s hs
    have hl := h.ledger.of_suffix (hr.suffix.trans a.past_suffix)
    have hs' := hb past hr
    rw [hflag]
    exact hl.uses hs' (h.ready_at ho (hs'.trans (hr.suffix.trans a.past_suffix)))
      (hu.of_suffix ho hr.suffix) hn
  · exact hp

theorem privileged_later (h' : b.Of owns start first calls c) (ho : b.origin = a.origin)
    (hab : a.past <:+ b.past) (hu : Untouched c.line.SetsPrivileged a.origin b.past)
    (hp : a.message.privileged = true) : b.message.privileged = true := by
  obtain he | hs := message_eq_or_sent_before hab
  · rwa [← he]
  have hcaller : b.caller = a.caller := caller_eq ho
  refine h'.privileged_of_uses a.past (ho ▸ a.origin_suffix) (fun past hr => ?_)
    (ho ▸ hu) (h.uses (hu.of_suffix List.suffix_rfl hab) hp)
  exact (List.suffix_cons _ _).trans (hr.after hs hcaller.symm rfl)

theorem reads : a.message.program = c.procedure.service.program ∧
    a.message.procedure = c.procedure.number ∧ a.message.Carries c.request.credential := by
  obtain ⟨-, -, ⟨stamp, hs⟩, -⟩ := h.attempted
  exact (Request.reads c.uniform hs).2

theorem restamped (h' : b.Of owns start first calls c) :
    Restamped a.message.segments b.message.segments := by
  obtain ⟨-, -, ⟨stamp, hs⟩, -⟩ := h.attempted
  obtain ⟨-, -, ⟨stamp', hs'⟩, -⟩ := h'.attempted
  exact Request.restamped c.uniform hs hs'

end Of
end Attempt

/-- The call before a release is the mount it releases. -/
theorem Attempt.Of.mount_of_release {jobs : ι → Job κ} {first : UInt32} {b : Attempt log}
    {c : LogicalCall κ} (h : b.Of (fun i => (jobs i).Owns) start first calls c) {k : κ}
    {ops : List Session.Operation} {regular : ∀ op ∈ ops, op.Regular}
    (hj : jobs b.caller = .session k ops regular)
    (hp : b.message.program = mountService.program)
    (hn : b.message.procedure = MountNumber.unmount.code) :
    ∃ origin, b.origin.lastDraw b.caller = some origin ∧ ∃ c₀, calls origin.length = some c₀ ∧
      c₀.procedure.service.program = mountService.program ∧
      c₀.procedure.number = MountNumber.mount.code ∧
      c₀.request.credential = c.request.credential := by
  obtain ⟨hprogram, hnumber, -⟩ := h.reads
  have calls_of {c : LogicalCall κ} (ho : (jobs b.caller).Owns c) :
      Session.Calls k c.line c.procedure.service.program := by
    unfold Job.Owns at ho
    rwa [hj] at ho
  have hline : c.line = .mount k := (calls_of h.owned).mount_iff.2 (hprogram.symm.trans hp)
  obtain ⟨g, hg, had⟩ := h.admitted
  obtain ⟨c₀, hc, hline₀, hnumber₀, hcredential⟩ := had.release k hline (hnumber.symm.trans hn)
  have hcall := hg.call
  rw [hc] at hcall
  obtain ⟨origin, ho, hc₀⟩ := Option.bind_eq_some_iff.1 hcall.symm
  obtain ⟨x, hx⟩ := History.lastDraw_eq_some ho
  have hs : b.origin <:+ log := b.origin_suffix.trans b.past_suffix
  obtain ⟨-, c', -, hc', hown, -⟩ := h.ledger _ _ (hx.trans hs)
  rw [hc₀] at hc'
  cases hc'
  exact ⟨origin, ho, c₀, hc₀, (calls_of hown).mount_iff.1 hline₀, hnumber₀, hcredential⟩

/-- Whatever the callers do and whenever they do it, as long as no more ids are drawn than there are
words: each send is an attempt of the call for which its caller last drew an id, and two sends show
the same id exactly if they are attempts of one call. All attempts of a call carry the same bytes
but for a stamp, and wait as long; while the port of its line is not set they go to the same
address, and while the line is not set to privileged ports or from them, they change to these at
most. A session releases what its call before mounted, and with the same credential. -/
theorem Runs.attempts_agree {jobs : ι → Job κ} {rest : ι → Program (Clients κ) Unit}
    {first : UInt32} (h : Runs (fun i => (jobs i).program) start first log rest)
    (hn : log.drawn ≤ UInt32.size) :
    (∀ i m answer past, ⟨i, .send m, answer⟩ :: past <:+ log →
      ∃ origin, History.lastDraw i past = some origin) ∧
    (∀ a b : Attempt log, a.message.xid = b.message.xid ↔ a.origin = b.origin) ∧
    (∀ a : Attempt log, ∃ line, (jobs a.caller).Uses line a.message.program ∧
      ∀ b : Attempt log, b.origin = a.origin → a.past <:+ b.past →
        Restamped a.message.segments b.message.segments ∧
        b.message.timeout = a.message.timeout ∧
        (History.Untouched line.SetsPort a.origin b.past →
          b.message.host = a.message.host ∧ b.message.port = a.message.port) ∧
        (History.Untouched line.SetsPrivileged a.origin b.past →
          a.message.privileged = true → b.message.privileged = true)) ∧
    ∀ b : Attempt log, ∀ k ops regular, jobs b.caller = .session k ops regular →
      b.message.program = mountService.program →
      b.message.procedure = MountNumber.unmount.code →
      ∃ origin credential, b.origin.lastDraw b.caller = some origin ∧
        b.message.Carries credential ∧
        ∀ a : Attempt log, a.origin = origin → a.message.program = mountService.program ∧
          a.message.procedure = MountNumber.mount.code ∧ a.message.Carries credential := by
  obtain ⟨calls, hl, -⟩ : ∃ calls, Ledger (fun i => (jobs i).Owns) start calls log ∧ _ :=
    h.ledger fun i => (jobs i).conducted {}
  have hof (a : Attempt log) : ∃ c, a.Of (fun i => (jobs i).Owns) start first calls c :=
    a.exists_of hl fun _ _ => h.fits
  refine ⟨fun i m answer past hs => ?_, fun a b => ?_, fun a => ?_, fun b k ops hr hj hp hp' => ?_⟩
  · obtain ⟨g, c, hg, hc, -⟩ := hl _ _ hs
    have hcall := hg.call
    rw [hc] at hcall
    obtain ⟨origin, ho, -⟩ := Option.bind_eq_some_iff.1 hcall.symm
    exact ⟨origin, ho⟩
  · obtain ⟨c, ha⟩ := hof a
    obtain ⟨c', hb⟩ := hof b
    obtain ⟨x, hx⟩ := a.draw
    obtain ⟨y, hy⟩ := b.draw
    rw [ha.message_xid, hb.message_xid]
    exact History.id_eq_iff (hx.trans a.past_suffix) (hy.trans b.past_suffix) rfl rfl hn
  · obtain ⟨c, ha⟩ := hof a
    refine ⟨c.line, ha.reads.1 ▸ ha.owned, fun b ho hab => ?_⟩
    obtain ⟨c', hb⟩ := hof b
    obtain rfl := ha.unique hb ho.symm
    refine ⟨ha.restamped hb, ?_, fun hu => ?_, ha.privileged_later hb ho hab⟩
    · rw [ha.timeout_eq, hb.timeout_eq, ho]
    · obtain ⟨hhost, hport⟩ := ha.address (hu.of_suffix List.suffix_rfl hab)
      obtain ⟨hhost', hport'⟩ := hb.address (ho ▸ hu)
      rw [ho] at hhost' hport'
      exact ⟨Except.ok.inj (hhost'.symm.trans hhost), hport'.trans hport.symm⟩
  · obtain ⟨c, hb⟩ := hof b
    obtain ⟨origin, ho, c₀, hc₀, hprogram, hnumber, hcredential⟩ :=
      hb.mount_of_release hj hp hp'
    refine ⟨origin, c.request.credential, ho, hb.reads.2.2, fun a ha => ?_⟩
    obtain ⟨c', hof'⟩ := hof a
    have hc' := hof'.call
    rw [ha, hc₀] at hc'
    cases hc'
    obtain ⟨hr₁, hr₂, hr₃⟩ := hof'.reads
    exact ⟨hr₁.trans hprogram, hr₂.trans hnumber, hcredential ▸ hr₃⟩

def lone : Clients Unit where
  sessions _ := .ofConfig (.ofExport "server" "/") .portmapper
  portmappers _ := { retry := default, timeout := default }
  dispatchers _ := { server := "server", retry := default, timeout := default, port := 2049 }

def nobody : Credential := .unix (.ofParts 0 0 [] "")

def asking : Job Unit :=
  .dispatcher () [.call Procedures.null (.plain _ _ _ _ _) () nobody none [Dispatcher.acceptAny]]

def question (x : UInt32) : Request Unit := ⟨x, (), nobody, x.toUInt64⟩

def remaining (x : UInt32) (left failures : Nat) : Program (Clients Unit) Unit :=
  (((ExceptT.run (Dispatcher.attempts Procedures.null (question x) Dispatcher.acceptAny left
    failures)).bind fun _ => .done ()).bind fun _ => .done ()).onPart (Clients.dispatcher ())

def asked (x stamp : UInt32) : Transmission where
  host := "server"
  port := 2049
  privileged := false
  segments := match (question x).segments Procedures.null stamp with
    | .ok segments => segments
    | .error _ => []
  timeout := default

def lost : IoFailure := ⟨.connectionReset, "lost"⟩

def newCall (i : Bool) (x : UInt32) : History Bool (Clients Unit) :=
  [⟨i, .inspect, lone⟩, ⟨i, .freshXid, x⟩]

def lostAttempt (i : Bool) (x stamp : UInt32) (failures : Nat) : History Bool (Clients Unit) :=
  [⟨i, .sleep (RetryPolicy.backoff default (failures + 1)), ()⟩, ⟨i, .inspect, lone⟩,
    ⟨i, .send (asked x stamp), .error lost⟩, ⟨i, .inspect, lone⟩, ⟨i, .timestamp, stamp⟩,
    ⟨i, .inspect, lone⟩]

theorem asked_segments (x stamp : UInt32) :
    (question x).segments Procedures.null stamp = .ok (asked x stamp).segments := by
  have hp (a : Unit) : Procedures.null.marshal a = MessageBuffer.put Codec.void a := rfl
  have hb : (nobody.body stamp).length ≤ maxLength := by
    rw [nobody.length_body stamp 0]
    decide
  have hs : ∃ segments, (question x).segments Procedures.null stamp = .ok segments :=
    (Request.segments_ok_iff hp).2 ⟨⟨hb, Nat.zero_le _⟩, rfl⟩
  obtain ⟨segments, hs⟩ := hs
  simp only [asked, hs]

theorem asking_begins (x : UInt32) : ∃ n₁, asking.program = .act .freshXid n₁ ∧
    ∃ n₂, n₁ x = .act .inspect n₂ ∧ n₂ lone = remaining x 2 0 :=
  ⟨_, rfl, _, rfl, rfl⟩

theorem remaining_lost (x stamp : UInt32) (left failures : Nat) :
    ∃ n₁, remaining x (left + 1) failures = .act .inspect n₁ ∧
    ∃ n₂, n₁ lone = .act .timestamp n₂ ∧
    ∃ n₃, n₂ stamp = .act .inspect n₃ ∧
    ∃ n₄, n₃ lone = .act (.send (asked x stamp)) n₄ ∧
    ∃ n₅, n₄ (.error lost) = .act .inspect n₅ ∧
    ∃ n₆, n₅ lone = .act (.sleep (RetryPolicy.backoff default (failures + 1))) n₆ ∧
      n₆ () = remaining x left (failures + 1) := by
  unfold remaining
  rw [Dispatcher.attempts.eq_def]
  unfold Dispatcher.attempt
  simp only [Dispatcher.callOnce_eq (asked_segments x)]
  exact ⟨_, rfl, _, rfl, _, rfl, _, rfl, _, rfl, _, rfl, rfl⟩

section Turns
variable {programs rest : Bool → Program (Clients Unit) Unit} {first x : UInt32}
  {past : History Bool (Clients Unit)} {i : Bool}

theorem new_call (h : Runs programs lone first past rest) (hs : past.state lone = lone)
    (hi : rest i = asking.program) (hx : x = first + UInt32.ofNat past.drawn) :
    ∃ rest', Runs programs lone first (newCall i x ++ past) rest' ∧
      rest' i = remaining x 2 0 ∧ ∀ j, j ≠ i → rest' j = rest j := by
  obtain ⟨n₁, h₁, n₂, h₂, hn⟩ := asking_begins x
  obtain ⟨_, r₁, i₁, s₁⟩ := h.take (hi.trans h₁) x hx
  obtain ⟨_, r₂, i₂, s₂⟩ := r₁.take (i₁.trans h₂) lone hs.symm
  refine ⟨_, r₂, i₂.trans hn, fun j hj => ?_⟩
  rw [s₂ j hj, s₁ j hj]

theorem lost_attempt {left failures : Nat} (h : Runs programs lone first past rest)
    (hs : past.state lone = lone) (hi : rest i = remaining x (left + 1) failures)
    (stamp : UInt32) :
    ∃ rest', Runs programs lone first (lostAttempt i x stamp failures ++ past) rest' ∧
      rest' i = remaining x left (failures + 1) ∧ ∀ j, j ≠ i → rest' j = rest j := by
  obtain ⟨n₁, h₁, n₂, h₂, n₃, h₃, n₄, h₄, n₅, h₅, n₆, h₆, hn⟩ :=
    remaining_lost x stamp left failures
  obtain ⟨_, r₁, i₁, s₁⟩ := h.take (hi.trans h₁) lone hs.symm
  obtain ⟨_, r₂, i₂, s₂⟩ := r₁.take (i₁.trans h₂) stamp trivial
  obtain ⟨_, r₃, i₃, s₃⟩ := r₂.take (i₂.trans h₃) lone hs.symm
  obtain ⟨_, r₄, i₄, s₄⟩ := r₃.take (i₃.trans h₄) (.error lost) trivial
  obtain ⟨_, r₅, i₅, s₅⟩ := r₄.take (i₄.trans h₅) lone hs.symm
  obtain ⟨_, r₆, i₆, s₆⟩ := r₅.take (i₅.trans h₆) () trivial
  refine ⟨_, r₆, i₆.trans hn, fun j hj => ?_⟩
  rw [s₆ j hj, s₅ j hj, s₄ j hj, s₃ j hj, s₂ j hj, s₁ j hj]

end Turns

def asks : History Bool (Clients Unit) := newCall true 0 ++ newCall false 0xFFFFFFFF

/-- Two callers ask, one of them twice. -/
def twoCallers : History Bool (Clients Unit) :=
  lostAttempt false 0xFFFFFFFF 9 1 ++
    (lostAttempt true 0 8 0 ++ (lostAttempt false 0xFFFFFFFF 7 0 ++ asks))

theorem runs_twoCallers :
    ∃ rest, Runs (fun _ => asking.program) lone 0xFFFFFFFF twoCallers rest := by
  have other : true ≠ false := nofun
  have r : Runs (fun _ : Bool => asking.program) lone 0xFFFFFFFF [] fun _ => asking.program :=
    .start
  obtain ⟨_, r₁, h₁, s₁⟩ := new_call (i := false) r rfl rfl rfl
  obtain ⟨_, r₂, h₂, s₂⟩ := new_call (i := true) (x := 0) r₁ rfl (s₁ _ other) rfl
  obtain ⟨_, r₃, h₃, s₃⟩ := lost_attempt r₂ rfl ((s₂ _ other.symm).trans h₁) 7
  obtain ⟨_, r₄, -, s₄⟩ := lost_attempt r₃ rfl ((s₃ _ other).trans h₂) 8
  obtain ⟨_, r₅, -, -⟩ := lost_attempt r₄ rfl ((s₄ _ other.symm).trans h₃) 9
  exact ⟨_, r₅⟩

theorem exists_attempt {log past origin : History Bool (Clients Unit)} {i : Bool}
    {x stamp : UInt32} {failures : Nat} (hs : lostAttempt i x stamp failures ++ past <:+ log)
    (ho : past.lastDraw i = some origin) : ∃ a : Attempt log,
      a.message = asked x stamp ∧ a.origin = origin ∧ a.past.length = past.length + 3 := by
  let ready : History Bool (Clients Unit) :=
    ⟨i, .inspect, lone⟩ :: ⟨i, .timestamp, stamp⟩ :: ⟨i, .inspect, lone⟩ :: past
  have hr : ready.lastDraw i = some origin := by
    refine (History.lastDraw_cons fun _ => rfl).trans ?_
    refine (History.lastDraw_cons fun _ => rfl).trans ?_
    exact (History.lastDraw_cons fun _ => rfl).trans ho
  have hsend : ⟨i, .send (asked x stamp), .error lost⟩ :: ready <:+
      lostAttempt i x stamp failures ++ past := ⟨[_, _], rfl⟩
  exact ⟨⟨i, _, _, ready, origin, hsend.trans hs, hr⟩, rfl, rfl, rfl⟩

theorem twoCallers_untouched (sets : (Clients Unit → Clients Unit) → Prop)
    (past : History Bool (Clients Unit)) {log : History Bool (Clients Unit)}
    (hl : log <:+ twoCallers) : History.Untouched sets past log := by
  intro i f before hf _
  have hm : ⟨i, .update f, ()⟩ ∈ twoCallers := (hf.trans hl).subset List.mem_cons_self
  simp [twoCallers, asks, lostAttempt, newCall] at hm

/-- The id after the last word is the first one. Who asks again shows the same id. -/
theorem Runs.attempts_agree_twoCallers :
    (∃ rest, Runs (fun _ => asking.program) lone 0xFFFFFFFF twoCallers rest) ∧
    twoCallers.drawn ≤ UInt32.size ∧ ∃ a b c : Attempt twoCallers,
      a.message = asked 0xFFFFFFFF 7 ∧ b.message = asked 0xFFFFFFFF 9 ∧ c.message = asked 0 8 ∧
      a.message.xid = b.message.xid ∧ a.message.xid ≠ c.message.xid ∧
      Restamped a.message.segments b.message.segments ∧
      b.message.timeout = a.message.timeout ∧ b.message.host = a.message.host ∧
      b.message.port = a.message.port := by
  obtain ⟨rest, h⟩ := runs_twoCallers
  have hn : twoCallers.drawn ≤ UInt32.size := by decide
  have hs : lostAttempt true 0 8 0 ++ (lostAttempt false 0xFFFFFFFF 7 0 ++ asks) <:+ twoCallers :=
    List.suffix_append _ _
  obtain ⟨b, hb, hbo, hbp⟩ := exists_attempt (List.suffix_refl twoCallers) rfl
  obtain ⟨c, hc, hco, -⟩ := exists_attempt hs rfl
  obtain ⟨a, ha, hao, hap⟩ := exists_attempt ((List.suffix_append _ _).trans hs) rfl
  obtain ⟨-, hxid, hall, -⟩ := Runs.attempts_agree h hn
  obtain ⟨line, -, hline⟩ := hall a
  have hle : a.past.length ≤ b.past.length := by
    rw [hap, hbp]
    decide
  have hab : a.past <:+ b.past :=
    List.suffix_of_suffix_length_le a.past_suffix b.past_suffix hle
  obtain ⟨hsegments, htimeout, hplace, -⟩ := hline b (hbo.trans hao.symm) hab
  obtain ⟨hhost, hport⟩ := hplace (twoCallers_untouched _ _ b.past_suffix)
  have hne : a.message.xid ≠ c.message.xid := fun hx => by
    have ho := (hxid a c).1 hx
    rw [hao, hco] at ho
    cases ho
  exact ⟨⟨rest, h⟩, hn, a, b, c, ha, hb, hc, (hxid a b).2 (hao.trans hbo.symm), hne, hsegments,
    htimeout, hhost, hport⟩

end Nfs3.Client
