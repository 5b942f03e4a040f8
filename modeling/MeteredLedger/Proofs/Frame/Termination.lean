import MeteredLedger.Proofs.Frame.Steps
import MeteredLedger.Proofs.Frame.Within
import MeteredLedger.Proofs.Machine.Decoding

/-!
# Every run ends

Where every jump costs gas (`Params.JumpsCost`), a frame cannot take turns forever. Each of
them either goes forward in the code or jumps, and a jump is paid for, where it is made or
where it leads. `Machine.potential` counts both together: the gas that is left, and how much
of the code is still ahead. It falls with every turn (`Exec.turn_ends`), for a turn that
enters a frame sets gas aside for it and gets back no more than that, and the frame is one
level deeper. So a run ends in as many steps as its potential says and so many more for each
level below it (`Exec.run_ends`), and `stepsFor` allows for them (`every_run_ends`).
-/

namespace MeteredLedger

/-- **Every jump costs gas**, where it leads or where it is made. -/
def Params.JumpsCost (p : Params) : Prop :=
  1 ≤ p.instructions.jumpdest ∨ 1 ≤ p.instructions.mid ∧ 1 ≤ p.instructions.high

instance (p : Params) : Decidable p.JumpsCost := by
  unfold Params.JumpsCost
  infer_instance

/-! ### The potential -/

namespace Machine

/-- The frame is at a place that jumps lead to. -/
def AtTarget (m : Machine) : Prop := m.frame.code[m.frame.pc]?.map Opcode.ofByte = some .jumpdest

instance (m : Machine) : Decidable m.AtTarget := by
  unfold AtTarget
  infer_instance

/-- What a jump is worth that is paid for where it leads: nothing any more once it is
there. -/
def reserve (p : Params) (m : Machine) : Nat :=
  if 1 ≤ p.instructions.jumpdest ∧ m.AtTarget then 0 else 1

/-- **The potential of a machine**: all that its gas may still pay for, if no code is longer
than `L`, and the rest of its code. -/
def potential (p : Params) (L : Nat) (m : Machine) : Nat :=
  (m.gas.remaining.toNat + m.reserve p) * (L + 1) + (L - m.frame.pc)

variable {p : Params} {env : Setting} {G L : Nat} {m m' : Machine}

theorem reserve_le (p : Params) (m : Machine) : m.reserve p ≤ 1 := by
  unfold reserve
  split_ifs
  · exact Nat.zero_le 1
  · exact Nat.le_refl 1

theorem Within.remaining_le (h : m.Within env G L) : m.gas.remaining.toNat ≤ G := by
  obtain ⟨limit, hlimit, hG⟩ := h.gas
  rw [Meter.toNat_remaining hlimit]
  omega

/-- The steps that a frame can be given for itself. -/
theorem potential_lt_bound (h : m.Within env G L) : m.potential p L < (G + 2) * (L + 2) := by
  have hreserve := m.reserve_le p
  have hgas : m.gas.remaining.toNat + m.reserve p ≤ G + 1 := by
    have := h.remaining_le
    omega
  have hmul := Nat.mul_le_mul_right (L + 1) hgas
  unfold potential
  calc (m.gas.remaining.toNat + m.reserve p) * (L + 1) + (L - m.frame.pc)
      < (G + 1) * (L + 1) + (L + 1) := by omega
    _ = (G + 2) * (L + 1) := by ring
    _ ≤ (G + 2) * (L + 2) := Nat.mul_le_mul_left _ (Nat.le_succ _)

/-- What lies where a jump leads, of a frame that knows the targets of its code. -/
theorem atTarget_of_target (h : m.Within env G L) (hcode : m'.frame.code = m.frame.code)
    (target : m.frame.targets[m'.frame.pc]? = some true) : m'.AtTarget := by
  rw [h.targets, List.getElem?_toArray] at target
  obtain ⟨hb, -⟩ := Code.jumpTargets_eq_true_iff.1 target
  rw [Array.getElem?_toList] at hb
  unfold AtTarget
  rw [hcode, hb]
  exact congrArg some (Opcode.ofByte_eq_jumpdest.2 rfl)

/-- **The potential falls** as a frame goes on behind an instruction that it has paid for, or
jumps. -/
theorem potential_lt (hj : env.params.JumpsCost) (h : m.Within env G L) {byte : UInt8}
    (next : m.frame.code[m.frame.pc]? = some byte) {cost : Gas}
    (hcost : (Opcode.ofByte byte).cost? env.params.instructions = some cost)
    (paid : m'.gas.remaining.toNat + cost.toNat ≤ m.gas.remaining.toNat)
    (hcode : m'.frame.code = m.frame.code)
    (place : m.frame.pc < m'.frame.pc ∨
      (Opcode.ofByte byte = .jump ∨ Opcode.ofByte byte = .jumpi) ∧
        m.frame.targets[m'.frame.pc]? = some true) :
    m'.potential env.params L < m.potential env.params L := by
  have hat : m.AtTarget ↔ Opcode.ofByte byte = .jumpdest := by
    unfold AtTarget
    rw [next]
    simp
  have hreserve := m'.reserve_le env.params
  have hinside : m.frame.pc < L := by
    have hlt := (Array.getElem?_eq_some_iff.1 next).1
    exact hlt.trans_le h.size
  obtain hforward | ⟨hjumps, target⟩ := place
  · -- what a jump was worth is spent at the place that it has led to
    have hle : m'.gas.remaining.toNat + m'.reserve env.params
        ≤ m.gas.remaining.toNat + m.reserve env.params := by
      by_cases hpays : 1 ≤ env.params.instructions.jumpdest ∧ m.AtTarget
      · rw [hat.1 hpays.2] at hcost
        cases hcost
        have hone := UInt64.le_iff_toNat_le.1 hpays.1
        rw [UInt64.toNat_one] at hone
        omega
      · have hone : m.reserve env.params = 1 := if_neg hpays
        omega
    have hmul := Nat.mul_le_mul_right (L + 1) hle
    unfold potential
    omega
  · have hone : m.reserve env.params = 1 := by
      refine if_neg fun hpays => ?_
      rw [hat.1 hpays.2] at hjumps
      obtain hjump | hjump := hjumps <;> cases hjump
    have hlt : m'.gas.remaining.toNat + m'.reserve env.params + 1
        ≤ m.gas.remaining.toNat + m.reserve env.params := by
      obtain hdest | ⟨hmid, hhigh⟩ := hj
      · have hzero : m'.reserve env.params = 0 :=
          if_pos ⟨hdest, atTarget_of_target h hcode target⟩
        omega
      · have hone' : 1 ≤ cost.toNat := by
          obtain hjump | hjump := hjumps <;> rw [hjump] at hcost <;> cases hcost
          · exact UInt64.le_iff_toNat_le.1 hmid
          · exact UInt64.le_iff_toNat_le.1 hhigh
        omega
    have hmul := Nat.mul_le_mul_right (L + 1) hlt
    rw [Nat.succ_mul] at hmul
    unfold potential
    omega

end Machine

/-! ### Turns -/

/-- **What a turn comes to** on a machine within bounds. -/
inductive Machine.Turned (env : Setting) (G L : Nat) (m : Machine) : Option Exit → Machine → Prop
  /-- The frame ends, with output that is not too long. -/
  | ends {how : Exit} {m' : Machine} (short : how.output.length ≤ Exec.regionBound)
      (codes : m'.world.CodesWithin env L) : Turned env G L m (some how) m'
  /-- It goes on, and its potential has fallen. -/
  | goesOn {m' : Machine} (within : m'.Within env G L) (depth : m'.frame.depth = m.frame.depth)
      (falls : m'.potential env.params L < m.potential env.params L) : Turned env G L m none m'

namespace Exec

variable {env : Setting} {G L : Nat} {body : Exec Exit} {m : Machine}

/-- An instruction is paid for before it does anything. -/
theorem step_pays (env : Setting) (L : Nat) (byte : UInt8) {limit : Gas}
    (hl : m.gas.limit = .bounded limit) :
    Meets (step env byte) m (fun ctl m' => ∃ cost mid,
      (Opcode.ofByte byte).cost? env.params.instructions = some cost ∧ m.Onward env L mid ∧
      mid.gas.remaining.toNat + cost.toNat ≤ m.gas.remaining.toNat ∧ Ends mid ctl m')
      fun _ _ => True := by
  unfold step
  dsimp only
  split
  · exact Meets.throw trivial
  · rename_i cost hcost
    have hcharge : Meets (charge cost (Opcode.ofByte byte).label) m
        (fun _ m₁ => m.Onward env L m₁ ∧
          m₁.gas.remaining.toNat + cost.toNat ≤ m.gas.remaining.toNat) fun _ _ => True := by
      unfold Meets charge
      cases h : m.gas.consume cost (Opcode.ofByte byte).label with
      | error stop => trivial
      | ok gas =>
        obtain ⟨hlimit, hconsumed, hroom⟩ := Meter.consume_eq_ok h
        refine ⟨.move (.pay h), ?_⟩
        rw [Meter.toNat_remaining hl, Meter.toNat_remaining (hlimit.trans hl), hconsumed]
        have := hroom limit hl
        omega
    refine Meets.bind (hcharge.mono ?_ fun _ _ h => h)
    rintro _ m₁ ⟨ho, hpaid⟩
    refine (perform_performs env _ m₁).mono ?_ fun _ _ _ => trivial
    rintro ctl m' ⟨mid, hmoves, hends⟩
    have ho' := (Machine.Onward.lasting env L).moves hmoves
    refine ⟨cost, mid, hcost, ho.trans ho', ?_, hends⟩
    have := ho'.remaining_le (ho.limit.trans hl)
    omega

/-- The end of a turn that has made moves at its place. -/
theorem goOn_meets (env : Setting) (L : Nat) {x : Exec Unit} (hx : Makes x) (hs : Stays x)
    (m : Machine) :
    Meets (do x; advance; return (none : Option Exit)) m
      (fun exit m' => exit = none ∧ m.Onward env L m' ∧ m'.frame.pc = m.frame.pc + 1)
      fun stop _ => stop.Decided := by
  have hpasses : Passes env L x := hx.passes hs
  refine Meets.bind (((hpasses m).and (hs m)).mono ?_ fun _ _ h => h.1)
  rintro _ m₁ ⟨ho, hstays, -⟩
  refine ⟨rfl, ho.trans ⟨rfl, Nat.le_refl _, rfl, id⟩, ?_⟩
  show m₁.frame.pc + 1 = _
  rw [hstays.pc]

theorem takeCall_stays (offset size : Nat) (r : FrameResult) : Stays (do
    writeMemory offset (r.output.take size)
    modifyFrame fun f => { f with returned := r.output }
    push (boolWord r.error.isNone)) :=
  (stays_writeMemory _ _).bind fun _ =>
    (stays_modifyFrame fun _ => ⟨by rfl, by rfl⟩).bind fun _ => stays_push _

theorem takeCreation_stays (r : FrameResult) : Stays (do
    modifyFrame fun f => { f with returned := if r.error.isSome then r.output else [] }
    push (r.address.elim 0 addressWord)) :=
  (stays_modifyFrame fun _ => ⟨by rfl, by rfl⟩).bind fun _ => stays_push _

/-- Of the gas set aside for a frame below no more comes back. -/
theorem onward_back {given left : Gas} {label : String} {gas : Meter} {w : World}
    (paid : m.gas.consume given label = .ok gas) (hle : left ≤ given)
    (hw : w.CodesWithin env L) :
    m.Onward env L { m with world := w, gas := gas.refund left label } := by
  obtain ⟨hlimit, hconsumed, -⟩ := Meter.consume_eq_ok paid
  refine ⟨hlimit, ?_, rfl, fun _ => hw⟩
  show _ ≤ (gas.refund left label).consumed.toNat
  rw [Meter.toNat_consumed_refund, hconsumed]
  have := UInt64.le_iff_toNat_le.1 hle
  omega

/-- A frame below is given no more gas than there is. -/
theorem toNat_given_le {given limit : Gas} {label : String} {gas : Meter}
    (paid : m.gas.consume given label = .ok gas) (hl : m.gas.limit = .bounded limit) :
    given.toNat ≤ limit.toNat := by
  have := (Meter.consume_eq_ok paid).2.2 limit hl
  omega

/-- **A turn lets the potential fall**, or ends the frame. -/
theorem turn_ends (hj : env.params.JumpsCost) (hL : regionBound ≤ L)
    (hin : StaysInside env body) (hl : Keeps Stop.OfCode Machine.SameLimit body)
    (hb : m.frame.depth + 1 ≤ env.params.maxCallDepth.toNat →
      EndsAt env G L (m.frame.depth + 1) body)
    (hm : m.Within env G L) {byte : UInt8} (next : m.frame.code[m.frame.pc]? = some byte) :
    Meets (turn env body byte) m (fun exit m' => m.Turned env G L exit m')
      fun stop _ => stop.Decided := by
  obtain ⟨limit, hlimit, hG⟩ := hm.gas
  have hstep := (step_leads env byte m).and (step_pays env L byte hlimit)
  refine Meets.bind (hstep.mono ?_ fun _ _ h => h.1)
  rintro ctl m' ⟨hleads, cost, mid, hcost, ho, hpaid, hends⟩
  have hmid := ho.limit.trans hlimit
  -- the instruction is paid for, so it is enough to go on somewhere else
  have goesOn : ∀ m₂ : Machine, mid.Onward env L m₂ → (m.frame.pc < m₂.frame.pc ∨
      (Opcode.ofByte byte = .jump ∨ Opcode.ofByte byte = .jumpi) ∧
        m.frame.targets[m₂.frame.pc]? = some true) → m.Turned env G L none m₂ := by
    intro m₂ ho₂ place
    have hall := ho.trans ho₂
    have hspent := ho₂.remaining_le hmid
    exact .goesOn (hm.onward hall) hall.depth
      (Machine.potential_lt hj hm next hcost (by omega) hall.code place)
  have resumes : ∀ {x : Exec Unit} {m₁ : Machine}, Makes x → Stays x → mid.Onward env L m₁ →
      m.frame.pc ≤ m₁.frame.pc → Meets (do x; advance; return (none : Option Exit)) m₁
        (fun exit m' => m.Turned env G L exit m') fun stop _ => stop.Decided := by
    intro x m₁ hmakes hstays ho₁ hpc
    refine (goOn_meets env L hmakes hstays m₁).mono ?_ fun _ _ h => h
    rintro _ m₂ ⟨rfl, ho₂, hplace⟩
    refine goesOn m₂ (ho₁.trans ho₂) (.inl ?_)
    rw [hplace]
    exact Nat.lt_succ_of_le hpc
  cases hends with
  | next =>
    cases hleads with
    | next pc =>
      refine goesOn _ ⟨rfl, Nat.le_refl _, rfl, id⟩ (.inl ?_)
      exact Nat.lt_succ_of_le (pc ▸ Nat.le_add_right _ _)
  | jumped =>
    cases hleads with
    | jumped jumps target => exact goesOn _ (.refl _) (.inr ⟨jumps, target⟩)
  | exit how =>
    cases hleads with
    | exit short => exact .ends short (ho.codes hm.codes)
  | @call c gas offset size caller depth paid =>
    cases hleads with
    | call _ stays =>
      have hgiven := (toNat_given_le paid hmid).trans hG
      rw [ho.depth] at depth
      obtain ⟨hcut, hcodes⟩ := callWith_ends (c := c) (w := mid.world) hin (depth ▸ hb) hgiven
        (ho.codes hm.codes)
      refine Meets.bind (descend_meets (fun r w h => ?_) fun a h => ?_)
      · have hback := onward_back paid (callWith_left_le hl h) (hcodes r w h)
        have taken := resumes (takeCall_makes offset size r) (takeCall_stays offset size r) hback
          stays.pc.ge
        exact taken
      · rintro ⟨⟩
        exact hcut h
  | @create c gas creator depth paid =>
    cases hleads with
    | create _ stays short =>
      have hgiven := (toNat_given_le paid hmid).trans hG
      rw [ho.depth] at depth
      obtain ⟨hcut, hcodes⟩ := createWith_ends (c := c) (w := mid.world) hin (depth ▸ hb) hL hgiven
        (short.trans hL) (ho.codes hm.codes)
      refine Meets.bind (descend_meets (fun r w h => ?_) fun a h => ?_)
      · have hback := onward_back paid (createWith_left_le hl h) (hcodes r w h)
        have taken := resumes (takeCreation_makes r) (takeCreation_stays r) hback stays.pc.ge
        exact taken
      · rintro ⟨⟩
        exact hcut h

/-- **A run ends** in as many steps as its potential says, and so many more for each level
of depth below it. -/
theorem run_ends (hj : env.params.JumpsCost) (hL : regionBound ≤ L) {steps : Nat}
    (hm : m.Within env G L)
    (hsteps : m.potential env.params L
      + (env.params.maxCallDepth.toNat - m.frame.depth) * ((G + 2) * (L + 2)) < steps) :
    Meets (run env steps) m
      (fun exit m' => exit.output.length ≤ regionBound ∧ m'.world.CodesWithin env L)
      fun stop _ => stop.Decided := by
  induction steps generalizing m with
  | zero => exact absurd hsteps (Nat.not_lt_zero _)
  | succ steps ih =>
    rw [run_succ]
    refine meets_inspect ?_
    cases next : m.frame.code[m.frame.pc]? with
    | none => exact Meets.pure ⟨Nat.zero_le _, hm.codes⟩
    | some byte =>
      -- a level below has all its steps left
      have hbelow : m.frame.depth + 1 ≤ env.params.maxCallDepth.toNat →
          EndsAt env G L (m.frame.depth + 1) (run env steps) := by
        intro hdepth m₁ hm₁ hd
        refine ih hm₁ ?_
        have hbound := Machine.potential_lt_bound (p := env.params) hm₁
        rw [hd]
        have hlevel : (env.params.maxCallDepth.toNat - m.frame.depth) * ((G + 2) * (L + 2))
            = (env.params.maxCallDepth.toNat - (m.frame.depth + 1)) * ((G + 2) * (L + 2))
              + (G + 2) * (L + 2) := by
          rw [← Nat.succ_mul]
          congr 1
          omega
        omega
      have hturn := turn_ends hj hL (Acts.staysInside (run_acts env steps))
        (run_sameLimit env steps) hbelow hm next
      refine Meets.bind (hturn.mono ?_ fun _ _ h => h)
      intro exit m₁ hturned
      cases hturned with
      | ends short codes => exact Meets.pure ⟨short, codes⟩
      | goesOn within depth falls =>
        refine ih within ?_
        rw [depth]
        omega

/-- At any depth. -/
theorem run_endsAt (hj : env.params.JumpsCost) (hL : regionBound ≤ L) {steps : Nat}
    (hsteps : (env.params.maxCallDepth.toNat + 2) * ((G + 2) * (L + 2)) ≤ steps) (depth : Nat) :
    EndsAt env G L depth (run env steps) := by
  intro m hm _
  refine run_ends hj hL hm ?_
  have hbound := Machine.potential_lt_bound (p := env.params) hm
  have hlevels := Nat.mul_le_mul_right ((G + 2) * (L + 2))
    (Nat.sub_le env.params.maxCallDepth.toNat m.frame.depth)
  rw [Nat.add_mul] at hsteps
  omega

end Exec

/-! ### The longest code -/

/-- The greatest length gathered from a map is within the bounds that all of them are
within. -/
theorem foldl_longer_le (codes : AddressMap Bytes) (most bound : Nat) :
    codes.foldl (fun most _ code => max most code.length) most ≤ bound ↔
      most ≤ bound ∧ ∀ (a : Address) (code : Bytes), codes[a]? = some code →
        code.length ≤ bound := by
  have hentries : (∀ (a : Address) (code : Bytes), codes[a]? = some code → code.length ≤ bound) ↔
      ∀ e ∈ codes.toList, e.2.length ≤ bound := by
    simp only [← Std.ExtTreeMap.mem_toList_iff_getElem?_eq_some, Prod.forall]
  rw [hentries, Std.ExtTreeMap.foldl_eq_foldl_toList]
  generalize codes.toList = l
  induction l generalizing most with
  | nil => simp
  | cons e l ih =>
    rw [List.foldl_cons, List.forall_mem_cons, ← and_assoc, ← Nat.max_le]
    exact ih _

/-- The longest code is within the bounds that all code is within. -/
theorem longestCode_le {env : Setting} {w : World} {initCode : Bytes} {bound : Nat} :
    longestCode env w initCode ≤ bound ↔
      initCode.length ≤ bound ∧ Exec.regionBound ≤ bound ∧
      (∀ (a : Address) (code : Bytes), env.store.code[a]? = some code → code.length ≤ bound) ∧
      ∀ layer ∈ w.view.layers, ∀ (a : Address) (code : Bytes), layer.code[a]? = some code →
        code.length ≤ bound := by
  have hlayers : ∀ (layers : List Layer) (most : Nat),
      layers.foldl (fun most layer => layer.code.foldl (fun most _ code =>
        max most code.length) most) most ≤ bound ↔ most ≤ bound ∧
        ∀ layer ∈ layers, ∀ (a : Address) (code : Bytes), layer.code[a]? = some code →
          code.length ≤ bound := by
    intro layers
    induction layers with
    | nil => simp
    | cons layer layers ih =>
      intro most
      rw [List.foldl_cons, ih, foldl_longer_le]
      simp only [List.forall_mem_cons, and_assoc]
  unfold longestCode
  dsimp only
  rw [hlayers, foldl_longer_le, Nat.max_le, and_assoc, and_assoc]

/-- No code that a world shows is longer than the longest one. -/
theorem codesWithin_longestCode (env : Setting) (w : World) (initCode : Bytes) :
    w.CodesWithin env (longestCode env w initCode) := by
  obtain ⟨-, -, hstore, hlayers⟩ := longestCode_le.1 (Nat.le_refl (longestCode env w initCode))
  intro a
  rw [View.codeAt_eq, View.find?_eq]
  cases hl : w.view.layers.findSome? (·.code[a]?) with
  | some code =>
    obtain ⟨layer, hmem, hcode⟩ := List.exists_of_findSome?_eq_some hl
    exact hlayers layer hmem a code hcode
  | none =>
    show (env.store.code[a]?.getD []).length ≤ _
    cases hs : env.store.code[a]? with
    | some code => exact hstore a code hs
    | none => exact Nat.zero_le _

/-! ### Whole runs -/

/-- A call is not cut off: it is given the steps for its gas. -/
theorem Call.perform_ends (env : Setting) (hj : env.params.JumpsCost) (c : Call) (w : World) :
    c.perform env w ≠ .error .unfinished := by
  obtain ⟨-, hL, -, -⟩ := longestCode_le.1 (Nat.le_refl (longestCode env w []))
  exact (callWith_ends (Exec.Acts.staysInside (Exec.run_acts env _))
    (fun _ => Exec.run_endsAt hj hL (Nat.le_refl _) _) (Nat.le_refl _)
    (codesWithin_longestCode env w [])).1

/-- Nor is a creation. -/
theorem Creation.perform_ends (env : Setting) (hj : env.params.JumpsCost) (c : Creation)
    (w : World) : c.perform env w ≠ .error .unfinished := by
  obtain ⟨hcode, hL, -, -⟩ := longestCode_le.1 (Nat.le_refl (longestCode env w c.initCode))
  exact (createWith_ends (Exec.Acts.staysInside (Exec.run_acts env _))
    (fun _ => Exec.run_endsAt hj hL (Nat.le_refl _) _) hL (Nat.le_refl _) hcode
    (codesWithin_longestCode env w c.initCode)).1

/-- **Every run ends**, where every jump costs gas: whatever a call or a creation is given
and whatever code it meets, it comes to an answer in the steps that are allowed for its gas,
and to the same answer in more of them. -/
theorem every_run_ends (env : Setting) (hj : env.params.JumpsCost) (w : World) :
    (∀ c : Call, c.perform env w ≠ .error .unfinished ∧
      ∀ steps, stepsFor env.params c.gas (longestCode env w []) ≤ steps →
        callIn steps env c w = c.perform env w) ∧
    ∀ c : Creation, c.perform env w ≠ .error .unfinished ∧
      ∀ steps, stepsFor env.params c.gas (longestCode env w c.initCode) ≤ steps →
        createIn steps env c w = c.perform env w := by
  refine ⟨fun c => ?_, fun c => ?_⟩
  · have hends := c.perform_ends env hj w
    exact ⟨hends, fun steps h => callIn_of_le h hends⟩
  · have hends := c.perform_ends env hj w
    exact ⟨hends, fun steps h => createIn_of_le h hends⟩

/-! ### A loop -/

namespace Loop

/-- Jumps back to where it starts, for as long as it has gas. -/
def code : Bytes := [0x5b, 0x60, 0, 0x56]

/-- Account 2 has the code. -/
def store : Store := (Store.ofAccounts [(⟨1⟩, .ofBalance 1000)]).putCode ⟨2⟩ code

/-- The standard parameters, on that store. -/
def setting : Setting := ⟨.standard, ⟨⟨1⟩, .zero, 0, 0, 740, .zero, View.canTransfer⟩, store⟩

/-- Nothing has been changed or counted. -/
def world : World := ⟨.fresh, .untracked⟩

/-- Account 1 calls the code. -/
def call : Call := ⟨⟨1⟩, ⟨2⟩, [], 740, 0, 0⟩

end Loop

open Loop in
/-- A call of code that jumps in a circle ends, and has no gas left. -/
theorem every_run_ends_loop : setting.params.JumpsCost ∧
    call.perform setting world ≠ .error .unfinished ∧
    ∃ r w', call.perform setting world = .ok (r, w') ∧ r.gasRemaining = 0 ∧
      r.error = some (.outOfGas 8 0) := by
  have hj : setting.params.JumpsCost := by decide
  obtain ⟨hends, hsame⟩ := (every_run_ends setting hj world).1 call
  have hran : (callIn 20 setting call world).toOption.bind
      (fun e => some (e.1.gasRemaining, e.1.error)) = some (0, some (.outOfGas 8 0)) := by
    decide +kernel
  obtain ⟨⟨r, w'⟩, hr, hread⟩ := exists_of_read hran
  rw [Option.some.injEq, Prod.mk.injEq] at hread
  refine ⟨hj, hends, r, w', ?_, hread⟩
  have hmore := callIn_of_le (Nat.le_add_left 20 (stepsFor .standard 740
    (longestCode setting world []))) (by rw [hr]; nofun)
  rw [← hsame _ (Nat.le_add_right _ 20), ← hr]
  exact hmore

end MeteredLedger
