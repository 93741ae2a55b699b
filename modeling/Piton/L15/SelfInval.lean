import Piton.L15.Handshake

/-! The self-invalidation of a data line: what the pass does to the states, and which line it tells
the L1 to drop. -/

namespace Piton.L15

open Hw

namespace State

variable (s : State) (i : Inputs)

/-- The way of the addressed set that holds the line of an address. -/
def matchingWay (a : Paddr) : Option Way :=
  firstWay fun w =>
    cacheTag a = (s.utag.ptags (cacheIndex a) w).setWidth 29 && s.mesi.written (cacheIndex a) w ≠ .I

/-- The L1 way that the way-map table has for way `w` of the set of an address. -/
def mappedWay (a : Paddr) (w : Way) : Option Way :=
  firstWay fun v => s.wmt.regfile (cacheIndex a) v = ⟨true, w⟩

/-- The L1 way of the data cache that a request to `l15_cpxencoder` invalidates. -/
def invalidationSent : Option Way :=
  if (s.cpxRequest i).val && (s.cpxRequest i).invalDcacheInval then some (s.cpxRequest i).invalWay
  else none

end State

/-- The self-invalidation that leaves S2 invalidates its line: the tag check reads the states of the
addressed set, the matching way becomes I and no other state changes, and the request from S3 names
the L1 way of that line, if there is one. -/
structure SelfInvalidates (s : State) (i i' : Inputs) : Prop where
  tagcheck : s.mesi.readIndexF = s.indexS2
  states : (s.step i).mesi.written =
    match s.matchingWay s.s2.address with
    | none => s.mesi.written
    | some w =>
      Function.update s.mesi.written s.indexS2
        (Function.update (s.mesi.written s.indexS2) w .I)
  invalidation : (s.step i).invalidationSent i' =
    (s.matchingWay s.s2.address).bind ((s.step i).mappedWay s.s2.address)

variable {s : State} {i i' : Inputs}

/-- The control signals of a self-invalidation that matter to the states and to the L1. -/
theorem Decodes.selfInvalidationRow {d : Decoded} (h : Decodes .dcacheSelfInvalidation d) :
    d.mesiReadOp = .none ∧ d.mesiWriteOp = .none ∧ d.cpxOperation = .genDcacheInvalidation := by
  obtain ⟨fs, a, b, c, e, rfl⟩ := h
  exact ⟨rfl, rfl, rfl⟩

/-- An instruction without a MESI write changes no state. -/
theorem written_step (h : s.s2.ops.mesiWriteOp = .none) :
    (s.step i).mesi.written = s.mesi.written := by
  have hvalid : (s.mesiWrite i).valid = false := by
    unfold State.mesiWrite State.mesiWriteControl
    rw [h]
    rfl
  change (s.mesi.tick (s.mesiReadVal i) s.indexS1 (s.mesiWrite i)).written = s.mesi.written
  unfold RfMesi.written RfMesi.tick
  rw [hvalid, if_neg Bool.false_ne_true]
  rfl

theorem matchingWay_ne_I {a : Paddr} {w : Way} (h : s.matchingWay a = some w) :
    s.mesi.written (cacheIndex a) w ≠ .I := by
  obtain ⟨hw, -⟩ := firstWay_spec h
  rw [Bool.and_eq_true] at hw
  exact of_decide_eq_true hw.2

/-- The request of a self-invalidation that enters S3 is made whatever the tag check found. -/
theorem invalidationSent_step (hv : s.valS2 = true) (hst : s.stallS2 i = false)
    (hop : s.s2.ops.cpxOperation = .genDcacheInvalidation) :
    (s.step i).invalidationSent i' = some (s.step i).wmtCompareMatchWay := by
  have hst3 : s.stallS3 i = false := by
    rwa [State.stallS2_eq, hv, Bool.true_and] at hst
  have hv3 : (s.step i).valS3 = true := by
    change (if s.stallS3 i then s.valS3 else s.valS2 && !s.stallS2 i) = true
    rw [hst3, if_neg Bool.false_ne_true, hv, hst]
    rfl
  have hs3 : (s.step i).s3 = s.s2 := by
    change (if s.stallS3 i then s.s3 else s.s2) = s.s2
    rw [hst3, if_neg Bool.false_ne_true]
  have howes : (s.step i).owes .cpx = true := by
    change (s.step i).cpxReq.1 = true
    unfold State.cpxReq
    rw [hs3, hop]
  have hoffers : (s.step i).cpxencoderVal = true := by
    change (s.step i).offers .cpx = true
    rw [offers_eq, hv3, howes, reqStaled_of_not_stallS3 hst3]
    rfl
  have hinval : (s.step i).cpxInvalidateL1 = true := by
    unfold State.cpxInvalidateL1
    rw [hs3, hop]
  have hway : (s.step i).cpxInvalWay = (s.step i).wmtCompareMatchWay := by
    unfold State.cpxInvalWay
    rw [hs3, hop]
  change (if (s.step i).cpxencoderVal && (s.step i).cpxInvalidateL1 then
    some (s.step i).cpxInvalWay else none) = some (s.step i).wmtCompareMatchWay
  rw [hoffers, hinval, hway]
  rfl

/-- No self-invalidation does what it is for: a line that matches keeps its state, and without one the
L1 is told to drop a line all the same. -/
theorem selfInvalidation_fails (h : machine.Reachable (fun _ _ => True) s) (hv : s.valS2 = true)
    (hreq : s.s2.reqtype = .dcacheSelfInvalidation) (hst : s.stallS2 i = false) :
    ¬ SelfInvalidates s i i' := by
  have hdec := (State.reachable_stagesDecode h).s2 hv
  rw [hreq] at hdec
  obtain ⟨-, hwrite, hcpx⟩ := hdec.selfInvalidationRow
  intro hs
  cases hm : s.matchingWay s.s2.address with
  | some w =>
    have hstates := hs.states
    rw [written_step hwrite, hm] at hstates
    have hI := congrFun (congrFun hstates s.indexS2) w
    simp only [Function.update_self] at hI
    exact matchingWay_ne_I hm hI
  | none =>
    have hsent := hs.invalidation
    rw [invalidationSent_step hv hst hcpx, hm] at hsent
    cases hsent

/-- A self-invalidation of the line of an address. -/
def Inputs.selfInvalidation (a : Paddr) : Inputs :=
  ofPcx { PcxPacket.zero with size := 3, address := a, invalidateCacheline := true }

/-- A line is filled, and after a load of another set it is invalidated; after the last cycle the
self-invalidation is in S2. -/
def selfInvalidationRun : List Inputs :=
  fillRun ++ List.replicate 3 Inputs.quiet ++ [Inputs.load 1 0x12345010] ++
    List.replicate 2 Inputs.quiet ++ [Inputs.selfInvalidation 0x12345000, Inputs.quiet]

theorem selfInvalidation_reachable :
    machine.Reachable (fun _ _ => True) (machine.run State.reset selfInvalidationRun) :=
  reachable_run (Machine.runOk_of_mem (fun _ _ => trivial) _)

theorem selfInvalidation_inS2 :
    (machine.run State.reset selfInvalidationRun).valS2 = true ∧
      (machine.run State.reset selfInvalidationRun).s2.reqtype = .dcacheSelfInvalidation ∧
      (machine.run State.reset selfInvalidationRun).stallS2 Inputs.quiet = false := by
  decide +kernel

theorem selfInvalidation_fails_otherSet :
    (machine.run State.reset selfInvalidationRun).matchingWay 0x12345000 = some 0 ∧
      (machine.run State.reset selfInvalidationRun).tagcheck = none ∧
      ¬ SelfInvalidates (machine.run State.reset selfInvalidationRun) Inputs.quiet Inputs.quiet := by
  obtain ⟨hv, hreq, hst⟩ := selfInvalidation_inS2
  exact ⟨by decide +kernel, by decide +kernel,
    selfInvalidation_fails selfInvalidation_reachable hv hreq hst⟩

/-- The line is in way 0 when the self-invalidation is in S2 and keeps its state. -/
theorem not_selfInvalidates :
    ¬ ∀ s i i', machine.Reachable (fun _ _ => True) s → s.valS2 = true →
      s.s2.reqtype = .dcacheSelfInvalidation → s.stallS2 i = false → SelfInvalidates s i i' := by
  intro hall
  obtain ⟨hv, hreq, hst⟩ := selfInvalidation_inS2
  have hs := hall _ Inputs.quiet Inputs.quiet selfInvalidation_reachable hv hreq hst
  have hread : (machine.run State.reset selfInvalidationRun).mesi.readIndexF ≠
      (machine.run State.reset selfInvalidationRun).indexS2 := by
    decide +kernel
  exact hread hs.tagcheck

end Piton.L15
