import Nfs3.Proofs.Client.HandshakeOrder

/-!
All that a run of a session sends, in order: whole handshakes, and the sends between them with the
session as it was then.
-/
namespace Nfs3.Client.Session
open Wire Rpc
variable {ε α β : Type} {env : Environment ε} {w w₁ w' : World Session ε}

theorem Handshake.events_of_log {s : Handshake ε} {es : List Event}
    (h : s.finish.log = s.start.log ++ es) : s.events = es := by
  rw [Handshake.events, h, List.drop_left]

inductive Entry (ε : Type) where
  | handshake (h : Handshake ε)
  | sent (x : Sending Session)

namespace Entry

def seen : Entry ε → Session
  | .handshake h => h.start.client
  | .sent x => x.seen

def exchanges : Entry ε → List Exchange
  | .handshake h => Client.exchanges h.events
  | .sent x => [x.exchange]

end Entry

def handshakesOf (es : List (Entry ε)) : List (Handshake ε) :=
  es.filterMap fun
    | .handshake h => some h
    | .sent _ => none

theorem handshakesOf_append (es es' : List (Entry ε)) :
    handshakesOf (es ++ es') = handshakesOf es ++ handshakesOf es' :=
  List.filterMap_append

theorem handshakesOf_sent (xs : List (Sending Session)) :
    handshakesOf (xs.map (Entry.sent : _ → Entry ε)) = [] := by
  induction xs with
  | nil => rfl
  | cons x xs ih => exact ih

/-- A run with all that is sent in it. As in `Performs`, what is no part of a handshake leaves the
mounting alone. -/
inductive Timeline (env : Environment ε) :
    Program Session α → World Session ε → List (Entry ε) → α → World Session ε → Prop where
  | done (v : α) (w : World Session ε) : Timeline env (.done v) w [] v w
  | act {a : Action Session} {next : a.Answer → Program Session α} {w w' : World Session ε}
      {es : List (Entry ε)} {v : α} : Quiet a →
      Timeline env (next (w.answer env a).1) (w.answer env a).2 es v w' →
      Timeline env (.act a next) w
        ((a.sendings w.client (w.answer env a).1).map .sent ++ es) v w'
  | handshake {next : Except ClientError FileHandle → Program Session α}
      {w w₁ w' : World Session ε} {result : Except ClientError FileHandle}
      {es : List (Entry ε)} {v : α} : Task.exec env handshake w = (result, w₁) →
      Timeline env (next result) w₁ es v w' →
      Timeline env ((ExceptT.run handshake).bind next) w (.handshake ⟨w, result, w₁⟩ :: es) v w'

namespace Timeline
variable {p : Program Session α} {es es' : List (Entry ε)} {v : α}

theorem performs (h : Timeline env p w es v w') : Performs env p w (handshakesOf es) v w' := by
  induction h with
  | done v w => exact .done v w
  | act hq _ ih =>
    rw [handshakesOf_append, handshakesOf_sent]
    exact .act hq ih
  | handshake hx _ ih => exact .handshake hx ih

theorem bind {f : α → Program Session β} {u : β} (h : Timeline env p w es v w₁)
    (h' : Timeline env (f v) w₁ es' u w') : Timeline env (p.bind f) w (es ++ es') u w' := by
  induction h with
  | done v w => exact h'
  | act hq _ ih =>
    rw [List.append_assoc]
    exact .act hq (ih h')
  | handshake hx _ ih =>
    rw [Program.bind_assoc]
    exact .handshake hx (ih h')

theorem quiet (env : Environment ε) {p : Program Session α} (h : p.Only Quiet)
    (w : World Session ε) :
    Timeline env p w ((p.sendings env w).map .sent) (p.run env w).1 (p.run env w).2 := by
  induction p generalizing w with
  | done v => exact .done v w
  | act a next ih =>
    rw [Program.sendings, List.map_append]
    exact .act h.1 (ih _ (h.2 _) _)

theorem self {result : Except ClientError FileHandle}
    (h : Task.exec env Session.handshake w = (result, w')) :
    Timeline env (ExceptT.run Session.handshake) w [.handshake ⟨w, result, w'⟩] result w' := by
  have hp : Timeline env ((ExceptT.run Session.handshake).bind .done) w _ _ _ :=
    .handshake h (.done _ _)
  rwa [Program.bind_done] at hp

theorem of_handshake {next : Except ClientError FileHandle → Program Session α}
    (h : Timeline env ((ExceptT.run Session.handshake).bind next) w es v w') :
    ∃ result w₁ es', Task.exec env Session.handshake w = (result, w₁) ∧
      es = .handshake ⟨w, result, w₁⟩ :: es' ∧ Timeline env (next result) w₁ es' v w' := by
  obtain ⟨change, rest, hh, hq⟩ := Performs.handshake_starts
  generalize hp : (ExceptT.run Session.handshake).bind next = p at h
  cases h with
  | done =>
    rw [hh] at hp
    cases hp
  | act _ h =>
    rw [hh] at hp
    cases hp
    exact (Performs.not_update hq h.performs).elim
  | @handshake next' _ w₁ _ result es _ hx h =>
    have hn := Program.eq_of_bind_eq env hp w
    unfold Task.exec at hx
    rw [hx] at hn
    rw [← hn] at h
    exact ⟨result, w₁, es, hx, rfl, h⟩

/-- A run has one timeline. -/
theorem unique {v' : α} {w'' : World Session ε} (h : Timeline env p w es v w')
    (h' : Timeline env p w es' v' w'') : es = es' := by
  induction h generalizing es' v' w'' with
  | done v w =>
    generalize hp : Program.done v = p at h'
    cases h' with
    | done => rfl
    | act _ _ => cases hp
    | handshake _ _ =>
      obtain ⟨_, _, hh, -⟩ := Performs.handshake_starts
      rw [hh] at hp
      cases hp
  | @act a next w w' es v hq h ih =>
    generalize hp : Program.act a next = p at h'
    cases h' with
    | done => cases hp
    | act _ h' =>
      cases hp
      rw [ih h']
    | handshake _ _ =>
      obtain ⟨change, _, hh, hq'⟩ := Performs.handshake_starts
      rw [hh] at hp
      cases hp
      exact (Performs.not_update hq' h.performs).elim
  | @handshake next w w₁ w' result es v hx _ ih =>
    obtain ⟨result', w₁', es₁, hx', rfl, h₁⟩ := h'.of_handshake
    rw [hx] at hx'
    cases hx'
    rw [ih h₁]

theorem exchanges_eq (h : Timeline env p w es v w') :
    exchanges w'.log = exchanges w.log ++ es.flatMap Entry.exchanges := by
  induction h with
  | done v w => simp
  | @act a next w w' es v hq _ ih =>
    rw [ih, World.answer_log, exchanges_append, Program.exchanges_events w.client,
      List.flatMap_append, List.append_assoc]
    simp [List.flatMap_map, Entry.exchanges, ← List.map_eq_flatMap]
  | @handshake next w w₁ w' result es v hx _ ih =>
    obtain ⟨es₁, -, hl⟩ := Task.exec_trace hx
    have he : Handshake.events ⟨w, result, w₁⟩ = es₁ := Handshake.events_of_log hl
    rw [ih, hl, exchanges_append, List.flatMap_cons, Entry.exchanges, he, List.append_assoc]

end Timeline

theorem Timeline.follows {config : ClientConfig} {source : PortSource} {p : Program Session α}
    {hs : List (Handshake ε)} {before after : List (Entry ε)} {e : Entry ε} {v : α}
    (h : Timeline env p w (before ++ e :: after) v w')
    (h₀ : Follows config source hs w.client) :
    Follows config source (hs ++ handshakesOf before) e.seen := by
  generalize hes : before ++ e :: after = es at h
  induction h generalizing hs before with
  | done v w => simp at hes
  | @act a next w w' es v hq h ih =>
    have h₁ : Follows config source hs (w.answer env a).2.client := h₀.same (same_answer hq w)
    cases a with
    | send m =>
      cases before with
      | nil =>
        obtain ⟨rfl, -⟩ := List.cons.inj hes
        rw [handshakesOf, List.filterMap_nil, List.append_nil]
        exact h₀
      | cons e₁ before =>
        obtain ⟨rfl, hes'⟩ := List.cons.inj hes
        have hf := ih h₁ hes'
        exact hf
    | _ => exact ih h₁ hes
  | handshake hx h ih =>
    cases before with
    | nil =>
      obtain ⟨rfl, -⟩ := List.cons.inj hes
      rw [handshakesOf, List.filterMap_nil, List.append_nil]
      exact h₀
    | cons e₁ before =>
      obtain ⟨rfl, hes'⟩ := List.cons.inj hes
      have hf := ih ((Performs.self hx).follows h₀) hes'
      rwa [List.append_assoc] at hf

end Nfs3.Client.Session
