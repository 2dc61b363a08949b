import Osdp.Analysis.Queue
import Osdp.Model.Submit

/-!
# What gives a device a command

`Bus.Shrinks` and `Bus.Gives` are the two things that can happen to the queues of a bus. A
transaction only shrinks them: `Next`, `Reply` and `Timeout` take commands from the front or put
one back where it was. The panel's `queue` gives one command to the first device at the address,
behind the others, or leaves the devices as they were and says why (`queue_cases`).
-/

set_option autoImplicit false

namespace Osdp

open Osdp.Secure (BaseKey Rnd)

/-- The command a request puts on an outbox. -/
def Request.command : Request → Message
  | .send m => m
  | .installKey key => keySetCommand key.toList
  | .setCommunication want => communicationCommand want

namespace Bus

/-! ## Queues of a whole bus -/

/-- No device has been given a command: each one's queue is what is left of it. -/
def Shrinks (b b' : Bus) : Prop :=
  b'.devices.length = b.devices.length ∧
    ∀ (i : ℕ) (d : Device), b.devices[i]? = some d →
      ∃ e, b'.devices[i]? = some e ∧ e.outstanding <:+ d.outstanding

/-- Nothing is added by nothing. -/
theorem Shrinks.refl (b : Bus) : b.Shrinks b := ⟨rfl, fun _ d hd => ⟨d, hd, List.suffix_rfl⟩⟩

/-- Nor where the devices are the same. -/
theorem Shrinks.of_devices {b b' : Bus} (h : b'.devices = b.devices) : b.Shrinks b' := by
  refine ⟨by rw [h], fun i d hd => ⟨d, ?_, List.suffix_rfl⟩⟩
  rw [h]
  exact hd

/-- Nor step by step. -/
theorem Shrinks.trans {b c d : Bus} (h : b.Shrinks c) (h' : c.Shrinks d) : b.Shrinks d := by
  refine ⟨h'.1.trans h.1, fun i x hx => ?_⟩
  obtain ⟨y, hy, hxy⟩ := h.2 i x hx
  obtain ⟨z, hz, hyz⟩ := h'.2 i y hy
  exact ⟨z, hz, hyz.trans hxy⟩

/-- `Next`, `Reply` and `Timeout` give a device no command. -/
theorem call_outstanding_suffix (b : Bus) (d : Device) {c : Call}
    (hc : (∃ rndA, c = .next rndA) ∨ (∃ f, c = .reply f) ∨ c = .timeout) :
    (call b d c).2.outstanding <:+ d.outstanding := by
  rcases hc with ⟨rndA, rfl⟩ | ⟨f, rfl⟩ | rfl
  · exact ⟨_, (transact_outstanding b d rndA).symm⟩
  · exact ⟨_, (reply_outstanding b d f).symm⟩
  · show (timeout d).2.outstanding <:+ d.outstanding
    rw [timeout_outstanding]

/-- `Next`, a reply and a timeout add nothing. -/
theorem onDevice_shrinks (b : Bus) (i : ℕ) {c : Call}
    (hc : (∃ rndA, c = .next rndA) ∨ (∃ f, c = .reply f) ∨ c = .timeout) :
    b.Shrinks (b.onDevice i c).2 := by
  unfold onDevice
  split
  · exact Shrinks.refl b
  · rename_i d hd
    refine ⟨List.length_set, fun j x hx => ?_⟩
    rcases eq_or_ne i j with rfl | hij
    · rw [hd] at hx
      cases hx
      obtain ⟨hlt, -⟩ := List.getElem?_eq_some_iff.1 hd
      exact ⟨_, List.getElem?_set_self hlt, call_outstanding_suffix b d hc⟩
    · exact ⟨x, by rw [List.getElem?_set_ne hij]; exact hx, List.suffix_rfl⟩

/-- Nor does `Next` on the bus. -/
theorem next_shrinks (b : Bus) (rndA : Rnd) : b.Shrinks (b.next rndA).2 := by
  unfold next
  split
  · exact Shrinks.refl b
  · exact (Shrinks.of_devices (b := b) rfl).trans (onDevice_shrinks _ _ (.inl ⟨rndA, rfl⟩))

/-- The device at `i` has been given this command, and no other device anything. -/
structure Gives (b b' : Bus) (i : ℕ) (m : Message) : Prop where
  device : ∃ d e, b.devices[i]? = some d ∧ b'.devices = b.devices.set i e ∧
    e.outbox = d.outbox ++ [m] ∧ e.inflight = d.inflight

/-- A submission is accepted and its command behind the others, or it changes nothing. -/
theorem onDevice_submits (b : Bus) {i : ℕ} {d : Device} (hd : b.devices[i]? = some d) {c : Call}
    {m : Message} (hc : c = .send m ∨ ∃ key, c = .installKey key ∧ m = keySetCommand key.toList) :
    ((b.onDevice i c).1 = some .accepted ∧ b.Gives (b.onDevice i c).2 i m) ∨
      (∃ e, (b.onDevice i c).1 = some (.refused e)) ∧ (b.onDevice i c).2.devices = b.devices := by
  obtain ⟨hlt, hget⟩ := List.getElem?_eq_some_iff.1 hd
  have hsame : b.devices.set i d = b.devices := by
    rw [← hget, List.set_getElem_self]
  rw [onDevice, hd]
  rcases hc with rfl | ⟨key, rfl, rfl⟩
  · simp only [call, send]
    cases checkSize b d m with
    | error e => exact .inr ⟨⟨e, rfl⟩, hsame⟩
    | ok _ => exact .inl ⟨rfl, ⟨d, _, hd, rfl, rfl, rfl⟩⟩
  · simp only [call, installKey]
    split
    · exact .inr ⟨⟨_, rfl⟩, hsame⟩
    · exact .inl ⟨rfl, ⟨d, _, hd, rfl, rfl, rfl⟩⟩

end Bus

namespace Panel

/-- What `queue` does: the first device at the address is given the command and the answer is nil,
or the devices are as they were and the answer is an error. -/
theorem queue_cases (b : Bus) (addr : Address) (req : Request) :
    (Verdict.ofQueue (queue b addr req).1 = .nil ∧
      ∃ i, b.devices.findIdx? (fun d => d.address == addr) = some i ∧
        b.Gives (queue b addr req).2 i req.command) ∨
    (Verdict.ofQueue (queue b addr req).1 ≠ .nil ∧
      Verdict.ofQueue (queue b addr req).1 ≠ .notRunning ∧
      (queue b addr req).2.devices = b.devices) := by
  cases hfind : b.devices.findIdx? (fun d => d.address == addr) with
  | none =>
    have hnone : queue b addr req = (none, b) := by rw [queue, hfind]
    rw [hnone]
    exact .inr ⟨nofun, nofun, rfl⟩
  | some i =>
    have hsubmits : ((queue b addr req).1 = some .accepted ∧
          b.Gives (queue b addr req).2 i req.command) ∨
        (∃ e, (queue b addr req).1 = some (.refused e)) ∧
          (queue b addr req).2.devices = b.devices := by
      obtain ⟨hlt, -, -⟩ := List.findIdx?_eq_some_iff_getElem.1 hfind
      have hd := List.getElem?_eq_getElem hlt
      rw [queue, hfind]
      cases req with
      | send m => exact Bus.onDevice_submits b hd (.inl rfl)
      | installKey key => exact Bus.onDevice_submits b hd (.inr ⟨key, rfl, rfl⟩)
      | setCommunication want =>
        simp only [Bus.perform, Bus.setCommunication]
        split
        · exact .inr ⟨⟨_, rfl⟩, rfl⟩
        · split
          · exact .inr ⟨⟨_, rfl⟩, rfl⟩
          · exact Bus.onDevice_submits b hd (.inl rfl)
    rcases hsubmits with ⟨hok, hgives⟩ | ⟨⟨e, herr⟩, hsame⟩
    · exact .inl ⟨by rw [hok]; rfl, i, rfl, hgives⟩
    · rw [herr]
      exact .inr ⟨nofun, nofun, hsame⟩

/-- Nor does silence. -/
theorem silent_shrinks {b : Bus} {p : Panel} (h : b.Shrinks p.bus) (i : ℕ) :
    b.Shrinks (p.silent i).2.bus := by
  have htimeout := h.trans (Bus.onDevice_shrinks p.bus i (c := .timeout) (.inr (.inr rfl)))
  unfold silent
  split <;> (rename_i heq; rw [heq] at htimeout; exact htimeout)

/-- Nor does a wait. -/
theorem await_shrinks (p : Panel) (i : ℕ) (port : Scan.Port) :
    p.bus.Shrinks (p.await i port).2.bus := by
  unfold await
  split
  · rename_i f r _ _
    have h := Bus.onDevice_shrinks p.bus i (c := .reply (f.readBack r.buf)) (.inr (.inl ⟨_, rfl⟩))
    simp only
    split
    · rename_i heq
      rw [heq] at h
      exact h
    · rename_i heq
      rw [heq] at h
      exact silent_shrinks h i
  · apply silent_shrinks
    exact Bus.Shrinks.refl _
  · apply silent_shrinks
    exact Bus.Shrinks.refl _
  · split
    · exact Bus.Shrinks.refl _
    · apply silent_shrinks
      exact Bus.Shrinks.refl _
  · exact Bus.Shrinks.refl _

/-- A transaction gives no device a command. -/
theorem exchange_shrinks (p : Panel) (x : Cycle) : p.bus.Shrinks (p.exchange x).bus := by
  have hnext := Bus.next_shrinks p.bus x.rndA
  unfold exchange
  split
  · rename_i f b heq
    rw [heq] at hnext
    split
    · exact hnext
    · split
      · have hawait := await_shrinks { p with bus := b } p.bus.current x.port
        split
        · rename_i q hq
          rw [hq] at hawait
          exact hnext.trans hawait
        · rename_i v q hq
          rw [hq] at hawait
          split
          · exact hnext.trans hawait
          · exact hnext.trans hawait
      · exact hnext
  · rename_i heq
    rw [heq] at hnext
    exact hnext

end Panel

end Osdp
