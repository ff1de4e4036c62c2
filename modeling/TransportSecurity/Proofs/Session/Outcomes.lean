import TransportSecurity.Proofs.Session.Pieces

/-!
What a session makes of octets, call by call.

While its handshake goes on a session waits for more or completes it, unless it fails (`Proceeds`).
After it a session hands out data, and a failure waits behind data that came before it (`Makes`); it
never asks to send anything any more (`Session.ne_of_mem_receiveAll`).
-/

namespace TransportSecurity

namespace Outcome

theorem waiting_of_ne_nil {data : Octets} (some : data ≠ []) (records : Octets) :
    waiting records data = .applicationData data := by
  unfold waiting
  rw [if_pos (by simpa using some)]

theorem waiting_nil {records : Octets} (some : records ≠ []) :
    waiting records [] = .output records := by
  unfold waiting
  rw [if_neg (by simp), if_pos (by simpa using some)]

end Outcome

namespace Session

open Endpoint Handled

variable {G : Type} [Entropy G] {session mid last : Session G} {octets more : Octets}
  {script others : List Handled} {failure : Option Failure}

/-- A session goes on with a stream where it waits. -/
theorem ComesTo.trans (comes : ComesTo session octets script none mid)
    (later : ComesTo mid (mid.inbox ++ more) others failure last) :
    ComesTo session (octets ++ more) (script ++ others) failure last := by
  cases comes with
  | waits arrived takes nothing =>
    rw [arrived, List.append_assoc]
    exact later.prepend takes

/-- A session that takes octets after its handshake, and waits for more. -/
structure Idle (session : Session G) : Prop where
  ready : session.Ready
  isOver : session.endpoint.stage = .established
  nothing : Record.next? session.inbox = .ok none

/-- What a session makes of octets after its handshake: it waits for more, or it fails, and then it
hands out the data from before first. -/
inductive Makes (session : Session G) (octets : Octets) : Outcome × Session G → Prop
  | goesOn {script : List Handled} {after : Session G} (idle : after.Idle)
    (comes : ComesTo session (session.inbox ++ octets) script none after) :
    Makes session octets (Outcome.waiting [] (contents script), after)
  | fails {script : List Handled} {failure : Failure} {after : Session G}
    (failed : after.endpoint.stage = .failed) (deferred : after.deferred = none)
    (comes : ComesTo session (session.inbox ++ octets) script (some failure) after)
    (silent : contents script = []) : Makes session octets (.failed failure, after)
  | defers {script : List Handled} {failure : Failure} {after : Session G}
    (failed : after.endpoint.stage = .failed)
    (comes : ComesTo session (session.inbox ++ octets) script (some failure) after)
    (data : contents script ≠ []) :
    Makes session octets (.applicationData (contents script),
      { after with deferred := some failure })

theorem makes_receive (ready : session.Ready) (isOver : session.endpoint.stage = .established)
    (octets : Octets) : session.Makes octets (session.receive octets) := by
  have receives := receives_receive ready.active octets
  generalize session.receive octets = result at receives ⊢
  cases receives with
  | waits arrived takes opened nothing =>
    obtain ⟨stays, _⟩ := takes.stays_over ready.sound isOver
    rw [takes.quiet ready.sound isOver]
    exact .goesOn ⟨ready.goesOn takes (Or.inl nothing), stays, nothing⟩
      (.waits arrived takes nothing)
  | completes arrived takes opened ends =>
    obtain ⟨_, goesOn⟩ := takes.stays_over ready.sound isOver
    cases (goesOn _ (by simp)).symm.trans ends
  | @stops script endpoint failing inbox pending error arrived takes opened refuses =>
    have comes := ComesTo.fails arrived takes refuses
    by_cases silent : contents script = []
    · rw [silent, stop_nil]
      exact .fails rfl ready.deferred comes silent
    · rw [stop_of_ne_nil _ _ silent]
      exact .defers rfl comes silent

/-- After its handshake a session never asks to send anything, nor says again that the handshake is
complete. -/
theorem ne_of_makes {result : Outcome × Session G} (makes : session.Makes octets result)
    (records : Octets) : result.1 ≠ .output records ∧ result.1 ≠ .handshakeComplete records := by
  cases makes with
  | @goesOn script _ idle comes =>
    by_cases silent : contents script = []
    · rw [silent]
      exact ⟨Outcome.noConfusion, Outcome.noConfusion⟩
    · rw [Outcome.waiting_of_ne_nil silent]
      exact ⟨Outcome.noConfusion, Outcome.noConfusion⟩
  | fails => exact ⟨Outcome.noConfusion, Outcome.noConfusion⟩
  | defers => exact ⟨Outcome.noConfusion, Outcome.noConfusion⟩

/-- Whatever a session is brought after its handshake, it never asks to send anything, nor says
again that the handshake is complete. -/
theorem ne_of_mem_receiveAll {reads : List Octets} {outcome : Outcome}
    (rests : session.Idle ∨ session.endpoint.stage = .failed)
    (found : outcome ∈ (session.receiveAll reads).1) (records : Octets) :
    outcome ≠ .output records ∧ outcome ≠ .handshakeComplete records := by
  induction reads generalizing session with
  | nil => cases found
  | cons octets reads ih =>
    rw [receiveAll_cons, List.mem_cons] at found
    rcases rests with idle | failed
    · have makes := makes_receive idle.ready idle.isOver octets
      rcases found with rfl | found
      · exact ne_of_makes makes records
      · refine ih ?_ found
        generalize session.receive octets = result at makes
        cases makes with
        | goesOn idle comes => exact Or.inl idle
        | fails failed deferred comes silent => exact Or.inr failed
        | defers failed comes data => exact Or.inr failed
    · rcases found with rfl | found
      · rw [receive_of_failed failed]
        exact ⟨Outcome.noConfusion, Outcome.noConfusion⟩
      · exact ih (Or.inr (failed_receive failed octets)) found

/-- What a session makes of octets while its handshake goes on, if it does not fail. -/
inductive Proceeds (session : Session G) (octets : Octets) : Outcome × Session G → Prop
  | waits {script : List Handled} {endpoint : Endpoint G} {inbox pending : Octets}
    {outcome : Outcome} (unfinished : outcome.completes = false)
    (arrived : session.inbox ++ octets = stream script ++ inbox)
    (takes : Takes session.endpoint session.pending script endpoint pending)
    (opened : Open script) (nothing : Record.next? inbox = .ok none) :
    Proceeds session octets (outcome, { session with endpoint, inbox, pending })
  | completes {script : List Handled} {closing : Handled} {endpoint : Endpoint G}
    {inbox pending records : Octets}
    (arrived : session.inbox ++ octets = stream (script ++ [closing]) ++ inbox)
    (takes : Takes session.endpoint session.pending (script ++ [closing]) endpoint pending)
    (opened : Open script) (ends : closing.progress.ends = true) :
    Proceeds session octets (.handshakeComplete records, { session with endpoint, inbox, pending })

theorem proceeds_of_receive {outcome : Outcome} {after : Session G} (ready : session.Ready)
    (running : session.endpoint.stage = .handshaking)
    (received : session.receive octets = (outcome, after)) (fine : outcome.failure? = none) :
    session.Proceeds octets (outcome, after) := by
  have receives := receives_receive ready.active octets
  rw [received] at receives
  generalize same : (outcome, after) = result at receives
  cases receives with
  | waits arrived takes opened nothing =>
    cases same
    exact .waits (Outcome.completes_waiting ..) arrived takes opened nothing
  | completes arrived takes opened ends =>
    cases same
    exact .completes arrived takes opened ends
  | stops arrived takes opened refuses =>
    rw [takes.silent ready.sound running opened, stop_nil] at same
    cases same
    cases fine

end Session

end TransportSecurity
