import CommandBridge.Proofs.Bridge.Opening
import CommandBridge.Proofs.Bridge.Stages
import CommandBridge.Proofs.Session.Admitted
import CommandBridge.Scripted.Machine

/-!
# Admission and execution agree

A bridge gives admission and session the same regions and the same number of channels, and nothing
that happens later changes either (`Reachable.fits`). Hence a producer learns of everything that
is wrong with the arguments of a request when it submits it, and never from the outcome
(`Reachable.refusal_only_at_submission`).
-/

namespace CommandBridge

/-- Whether an error comes from submitting or waiting, and not from running a command. -/
def CommandError.isRefusal : CommandError → Bool
  | .queueFull | .invalidArgument _ | .timeout | .shutdown => true
  | _ => false

theorem CommandError.isRefusal_ofMachine (why : MachineError) : (ofMachine why).isRefusal = false := by
  cases why <;> rfl

variable {σ : Type} [Machine σ]

namespace Session

/-- Nothing changes the regions of a session or the number of its channels. -/
theorem fits_invariant (allowed : (σ → σ) → Prop) (limits : Limits) :
    SessionInvariant allowed fun _ (s : Session σ) => s.Fits limits where
  handle _ s command h := by
    refine keeps_handle (.of_blind ?_) ?_ command.request ?_ s h
    · exact fun _ _ ht => ⟨ht.regions_eq, ht.count_eq⟩
    · exact fun _ _ ht => ⟨ht.regions_eq, ht.count_eq⟩
    · exact fun _ _ _ _ ht hcount => ⟨ht.regions_eq, hcount.trans ht.count_eq⟩
  nextFrame _ s h :=
    keeps_nextFrame (fun _ => .onPart _ fun _ ht => ⟨ht.regions_eq, ht.count_eq⟩) s h
  step _ _ _ h := ⟨h.regions_eq, (OverlaySet.count_expire _ _).trans h.count_eq⟩
  outside _ _ _ h _ := ⟨h.regions_eq, h.count_eq⟩

end Session

/-! ### Limits along a run -/

/-- A submission changes the queue and the counters only. -/
theorem Intake.exists_submit (i : Intake) (request : Request) :
    ∃ queue counters, (i.submit request).2 = { i with queue := queue, counters := counters } := by
  rw [Intake.submit]
  split
  · exact ⟨_, _, rfl⟩
  · split <;> exact ⟨_, _, rfl⟩

theorem Intake.limits_submit (i : Intake) (request : Request) :
    (i.submit request).2.limits = i.limits := by
  obtain ⟨_, _, hsubmit⟩ := i.exists_submit request
  rw [hsubmit]

theorem Bridge.limits_closeTick (b : Bridge σ) (o : OpenTick) :
    (Bridge.closeTick o b).2.intake.limits = b.intake.limits := by
  rw [Bridge.closeTick]
  cases o.frame <;> rfl

/-- Admission keeps the limits it was given. -/
theorem Bridge.limits_invariant (limits : Limits) :
    BridgeInvariant fun b : Bridge σ => b.intake.limits = limits where
  submit b request h := (b.intake.limits_submit request).trans h
  useFuture _ _ _ h := h
  drained _ h := h
  runCommand _ _ h := h
  nextFrame _ h := h
  closeTick b o h := (b.limits_closeTick o).trans h
  close _ h := h
  unattended _ h := h
  changeMachine _ _ h := h

theorem Stage.limits_proceed (s : Stage σ) :
    s.proceed.bridge.intake.limits = s.bridge.intake.limits :=
  (Bridge.limits_invariant _).proceed rfl

namespace Reachable

variable {allowed : (σ → σ) → Prop} {b₀ : Bridge σ} {s : Stage σ}

theorem limits_eq (h : Reachable allowed b₀ s) :
    s.bridge.intake.limits = b₀.intake.limits :=
  h.bridge_invariant (Bridge.limits_invariant _) rfl

/-- In every stage the session fits what admission knows. -/
theorem fits {machine : σ} {settings : Settings} (hstart : Bridge.start machine settings = .ok b₀)
    (h : Reachable allowed b₀ s) : s.bridge.session.Fits s.bridge.intake.limits := by
  obtain ⟨regions, -, -, rfl⟩ := Bridge.start_eq_ok.mp hstart
  rw [h.limits_eq]
  exact h.session_invariant (Session.fits_invariant allowed _) ⟨rfl, OverlaySet.count_fresh _⟩

/-- In every stage that a bridge reaches, a request that admission accepts does not fail for a
reason that submission could have told. If a write in it is refused, then at the first address of
its range that lies in a region whose feature the machine does not have when it is asked. Both
hold also of the operations of a batch, each in the state that the ones before it have left. -/
theorem refusal_only_at_submission {machine : σ} {settings : Settings}
    (hstart : Bridge.start machine settings = .ok b₀) (h : Reachable allowed b₀ s)
    (request : Request) (hvalid : s.bridge.intake.limits.check request = .ok ()) :
    (∀ e, outcomeOf ((Session.handle request).run s.bridge.session).1 = .error e →
      e.isRefusal = false ∧
      ∀ a, e = .permissionDenied a → ∃ m start data,
        Session.ServedAt request s.bridge.session m ∧ request.write? = some (start, data) ∧
        RefusedAt s.bridge.session.regions start data.length a m) ∧
    (∀ outcomes i e,
      outcomeOf ((Session.handle request).run s.bridge.session).1 = .ok (.batch outcomes) →
      outcomes[i]? = some (.error e) →
      e.isRefusal = false ∧
      ∀ a, e = .permissionDenied a → ∃ ops m start data earlier before,
        request = .batch ops ∧ Session.ServedAt request s.bridge.session m ∧
        ops[i]? = some (.write start data) ∧
        (performAll s.bridge.session.regions (ops.take i)).run m = (.ok earlier, before) ∧
        RefusedAt s.bridge.session.regions start data.length a before) := by
  have hfits := h.fits hstart
  rw [hfits.regions_eq]
  refine ⟨?_, ?_⟩
  · intro e he
    rcases Session.handle_error_of_admitted hfits hvalid he with
      rfl | ⟨p, rfl⟩ | ⟨why, rfl⟩ | ⟨m, start, data, a, hserved, hwrite, rfl, hrefused⟩
    · exact ⟨rfl, by simp⟩
    · exact ⟨rfl, by simp⟩
    · refine ⟨CommandError.isRefusal_ofMachine why, ?_⟩
      intro a ha
      cases why <;> cases ha
    · refine ⟨rfl, ?_⟩
      rintro _ ⟨⟩
      exact ⟨m, start, data, hserved, hwrite, hrefused⟩
  · intro outcomes i e hbatch he
    obtain ⟨ops, m, start, data, a, earlier, before, hrequest, hserved, hget, rfl, hearlier,
      hrefused⟩ := Session.handle_batch_of_admitted hfits hvalid hbatch he
    refine ⟨rfl, ?_⟩
    rintro _ ⟨⟩
    exact ⟨ops, m, start, data, earlier, before, hrequest, hserved, hget, hearlier, hrefused⟩

/-- A write to battery-backed memory in a session without a battery. -/
theorem write_refused_without_battery :
    let session := (Bridge.standard (Scripted.fresh true false Faults.none)).session
    let request : Request := .writeByte (Address.ofNat 0x6000) 1
    outcomeOf ((Session.handle request).run session).1 =
        .error (.permissionDenied (Address.ofNat 0x6000)) ∧
      ∃ m start data, Session.ServedAt request session m ∧ request.write? = some (start, data) ∧
        RefusedAt session.regions start data.length (Address.ofNat 0x6000) m := by
  refine ⟨rfl, ?_⟩
  have hreach : Reachable (fun _ => True) _
      (.opened (Bridge.standard (Scripted.fresh true false Faults.none))) := .opened
  have hagree := hreach.refusal_only_at_submission (Bridge.start_standard _)
    (.writeByte (Address.ofNat 0x6000) 1) rfl
  exact (hagree.1 _ rfl).2 _ rfl

end Reachable

end CommandBridge
