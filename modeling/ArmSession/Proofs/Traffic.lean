import ArmSession.Reading
import ArmSession.Proofs.Traced

/-!
# Traffic on a link

Traffic are calls on a link one after the other, each with its answer and with the link before and
after it. A loop, whether it reads or controls, leaves its link as traffic on the realtime channel
leaves it.
-/

namespace ArmSession

namespace LinkCall

def channel : LinkCall → Channel
  | send c _ _ => c
  | receive c _ _ => c

def error? : LinkCall → Option LinkError
  | send _ _ (.error e) => some e
  | receive _ _ (.error e) => some e
  | _ => none

def received? (c : Channel) : LinkCall → Option Bytes
  | receive d _ (.ok m) => if d = c then some m else none
  | _ => none

def sent? (c : Channel) : LinkCall → Option Bytes
  | send d m (.ok _) => if d = c then some m else none
  | _ => none

theorem received?_of_error {call : LinkCall} {e : LinkError} (h : call.error? = some e)
    (c : Channel) : call.received? c = none := by
  cases call with
  | send => rfl
  | receive d timeout answer =>
      cases answer with
      | error => rfl
      | ok m => cases h

theorem received?_of_channel_ne {call : LinkCall} {c : Channel} (h : call.channel ≠ c) :
    call.received? c = none := by
  cases call with
  | send => rfl
  | receive d timeout answer =>
      cases answer with
      | error => rfl
      | ok m => exact if_neg h

end LinkCall

structure CallStep (σ : Type) where
  before : σ
  call : LinkCall
  after : σ

def receivedOn {σ : Type} (c : Channel) (steps : List (CallStep σ)) : List Bytes :=
  steps.filterMap (·.call.received? c)

theorem receivedOn_cons {σ : Type} (c : Channel) (s : CallStep σ) (steps : List (CallStep σ)) :
    receivedOn c (s :: steps) = (s.call.received? c).toList ++ receivedOn c steps := by
  unfold receivedOn
  cases h : s.call.received? c with
  | none => exact List.filterMap_cons_none h
  | some m => exact List.filterMap_cons_some h

def sentOn {σ : Type} (c : Channel) (steps : List (CallStep σ)) : List Bytes :=
  steps.filterMap (·.call.sent? c)

theorem sentOn_cons {σ : Type} (c : Channel) (s : CallStep σ) (steps : List (CallStep σ)) :
    sentOn c (s :: steps) = (s.call.sent? c).toList ++ sentOn c steps := by
  unfold sentOn
  cases h : s.call.sent? c with
  | none => exact List.filterMap_cons_none h
  | some m => exact List.filterMap_cons_some h

section

variable {σ : Type} [Link σ] {link link' link'' : σ} {steps more : List (CallStep σ)}

/-- This is how the link answers the call. -/
def CallStep.Made (s : CallStep σ) : Prop :=
  match s.call with
  | .send c m answer => Link.send c m s.before = (answer, s.after)
  | .receive c timeout answer => Link.receive c timeout s.before = (answer, s.after)

inductive Traffic : σ → List (CallStep σ) → σ → Prop
  | none (link : σ) : Traffic link [] link
  | more {s : CallStep σ} {steps : List (CallStep σ)} {link' : σ} (made : s.Made)
      (rest : Traffic s.after steps link') : Traffic s.before (s :: steps) link'

namespace Traffic

theorem of_send {c : Channel} {m : Bytes} {answer : Except LinkError Unit}
    (h : Link.send c m link = (answer, link')) (rest : Traffic link' steps link'') :
    Traffic link (⟨link, .send c m answer, link'⟩ :: steps) link'' :=
  .more (s := ⟨link, .send c m answer, link'⟩) h rest

theorem of_receive {c : Channel} {timeout : Duration} {answer : Except LinkError Bytes}
    (h : Link.receive c timeout link = (answer, link')) (rest : Traffic link' steps link'') :
    Traffic link (⟨link, .receive c timeout answer, link'⟩ :: steps) link'' :=
  .more (s := ⟨link, .receive c timeout answer, link'⟩) h rest

theorem append (h : Traffic link steps link') (h' : Traffic link' more link'') :
    Traffic link (steps ++ more) link'' := by
  induction h with
  | none => exact h'
  | more made _ ih => exact .more made (ih h')

theorem made_of_mem (h : Traffic link steps link') {s : CallStep σ} (hs : s ∈ steps) :
    s.Made := by
  induction h with
  | none => cases hs
  | more made _ ih =>
      cases hs with
      | head => exact made
      | tail _ hs => exact ih hs

end Traffic

/-- Calls on the realtime channel lead from one state of a link to another. -/
def RealtimeTraffic (link link' : σ) : Prop :=
  ∃ steps, Traffic link steps link' ∧ ∀ s ∈ steps, s.call.channel = .realtime

namespace RealtimeTraffic

theorem refl (link : σ) : RealtimeTraffic link link := ⟨[], .none link, by simp⟩

theorem trans (h : RealtimeTraffic link link') (h' : RealtimeTraffic link' link'') :
    RealtimeTraffic link link'' := by
  obtain ⟨steps, htraffic, hrealtime⟩ := h
  obtain ⟨more, htraffic', hrealtime'⟩ := h'
  exact ⟨steps ++ more, htraffic.append htraffic', List.forall_mem_append.2 ⟨hrealtime, hrealtime'⟩⟩

theorem of_send {m : Bytes} {answer : Except LinkError Unit}
    (h : Link.send .realtime m link = (answer, link')) : RealtimeTraffic link link' :=
  ⟨_, .of_send h (.none link'), by simp [LinkCall.channel]⟩

theorem of_receive {timeout : Duration} {answer : Except LinkError Bytes}
    (h : Link.receive .realtime timeout link = (answer, link')) : RealtimeTraffic link link' :=
  ⟨_, .of_receive h (.none link'), by simp [LinkCall.channel]⟩

end RealtimeTraffic

namespace ControlLoop

variable {ρ : Type} {c : ControlLoop ρ} {user : ρ} {run : Run σ ρ}

theorem Exchanges.traffic {x : Exchange ρ} {receiver : Receiver}
    (h : Exchanges c link user x receiver link') : RealtimeTraffic link link' := by
  obtain ⟨between, hreceive, hsend⟩ := h.carried
  exact (RealtimeTraffic.of_receive hreceive).trans (.of_send hsend)

theorem Breaks.traffic (h : Breaks c link user run) : RealtimeTraffic link run.link := by
  cases h with
  | receive failed => exact .of_receive failed
  | take arrived _ => exact .of_receive arrived
  | fault arrived _ _ => exact .of_receive arrived
  | combine arrived _ _ _ => exact .of_receive arrived
  | send arrived _ _ _ failed => exact (RealtimeTraffic.of_receive arrived).trans (.of_send failed)

theorem Course.traffic {xs : List (Exchange ρ)} (h : Course c link user xs run) :
    RealtimeTraffic link run.link := by
  induction h with
  | broken last => exact last.traffic
  | finished last _ => exact last.traffic
  | again first _ _ ih => exact first.traffic.trans ih

theorem traffic_run (c : ControlLoop ρ) (link : σ) (user : ρ) :
    RealtimeTraffic link (c.run link user).link := by
  cases hphase : c.phase.isTerminal with
  | true =>
      rw [run_of_terminal hphase]
      exact .refl link
  | false =>
      obtain ⟨xs, hxs⟩ := exists_course c link user
      rw [run_eq hphase]
      exact hxs.traffic

end ControlLoop

theorem Receiver.traffic_next (r : Receiver) (link : σ) :
    RealtimeTraffic link (r.next link).2 := by
  unfold Receiver.next
  cases hreceive : Link.receive .realtime r.timeout link with
  | mk answer between =>
      cases answer with
      | error e => exact .of_receive hreceive
      | ok m => exact .of_receive hreceive

theorem Reading.traffic_run {ρ : Type} (goesOn : Predicate ρ) (r : Receiver) (link : σ) (user : ρ)
    (count : UInt64) : RealtimeTraffic link (run goesOn r link user count).link := by
  induction r, link, user, count using @Reading.run.induct σ ρ _ goesOn with
  | case1 r link user count e link' hnext =>
      have hfirst := r.traffic_next link
      rw [run_of_error hnext]
      rwa [hnext] at hfirst
  | case2 r link user count s period r' link' hnext user' hgoesOn ih =>
      have hfirst := r.traffic_next link
      rw [run_of_ok hnext, hgoesOn]
      rw [hnext] at hfirst
      exact hfirst.trans ih
  | case3 r link user count s period r' link' hnext user' hstops =>
      have hfirst := r.traffic_next link
      rw [run_of_ok hnext, hstops]
      rwa [hnext] at hfirst

end

end ArmSession
