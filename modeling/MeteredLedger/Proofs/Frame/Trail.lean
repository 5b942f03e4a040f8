import MeteredLedger.Proofs.Frame.Termination

/-!
# The trail of a run

A run goes from machine to machine, one at each of its iterations (`Exec.traced`). Code is decoded
twice over: by the scan that marks where jumps may lead, before the run, and by the steps of the run
itself. The two agree. A turn leads behind the data of its instruction or to a marked place
(`Exec.turn_place`), and so a frame that starts at the front of its code is on track at every
iteration (`Frame.OnTrack`, `Exec.traced_onTrack`): behind the code, or where the decoding from the
front has an instruction start.
-/

namespace MeteredLedger

/-! ### Places -/

/-- **The frame is on track**: it knows where jumps may lead in its code, and is behind the code or
where an instruction starts. -/
structure Frame.OnTrack (f : Frame) : Prop where
  targets : f.targets = (Code.jumpTargets f.code.toList).toArray
  place : f.code.size ≤ f.pc ∨ Code.Starts f.code.toList f.pc

/-- **Where a turn of one instruction leads**: behind its data, or where a jump may lead. -/
def Frame.GoesTo (byte : UInt8) (f f' : Frame) : Prop :=
  f'.fixed = f.fixed ∧ (f'.pc = f.pc + 1 + Code.dataSize byte ∨
    (byte = 0x56 ∨ byte = 0x57) ∧ f.targets[f'.pc]? = some true)

namespace Frame

variable {f f' : Frame} {byte : UInt8}

theorem code_of_fixed (h : f'.fixed = f.fixed) : f'.code = f.code := congrArg (·.code) h

theorem targets_of_fixed (h : f'.fixed = f.fixed) : f'.targets = f.targets :=
  congrArg (·.targets) h

/-- A frame at the front of its code is on track. -/
theorem onTrack_load (f : Frame) (code : Bytes) : (f.load code).OnTrack := by
  refine ⟨rfl, ?_⟩
  show code.length ≤ 0 ∨ Code.Starts code 0
  obtain hempty | hcode := Nat.eq_zero_or_pos code.length
  · exact .inl hempty.le
  · exact .inr (.front hcode)

/-- What is marked in a frame on track is the start of an instruction. -/
theorem OnTrack.starts (h : f.OnTrack) {i : Nat} (marked : f.targets[i]? = some true) :
    Code.Starts f.code.toList i := by
  rw [h.targets, List.getElem?_toArray] at marked
  exact (Code.jumpTargets_eq_true_iff.1 marked).2

/-- **A turn does not lead off the track.** -/
theorem OnTrack.goesTo (h : f.OnTrack) (next : f.code[f.pc]? = some byte)
    (hto : GoesTo byte f f') : f'.OnTrack := by
  obtain ⟨hfixed, hplace⟩ := hto
  have hcode := code_of_fixed hfixed
  refine ⟨by rw [targets_of_fixed hfixed, hcode, h.targets], ?_⟩
  rw [hcode]
  have hlt : f.pc < f.code.size := (Array.getElem?_eq_some_iff.1 next).1
  have hstart : Code.Starts f.code.toList f.pc := h.place.resolve_left (Nat.not_le_of_lt hlt)
  obtain hpc | ⟨-, hmarked⟩ := hplace
  · rw [hpc]
    obtain hbehind | hinside := le_or_gt f.code.size (f.pc + 1 + Code.dataSize byte)
    · exact .inl hbehind
    · exact .inr (hstart.next (by rwa [Array.getElem?_toList]) hinside)
  · exact .inr (h.starts hmarked)

/-- **A jump leads to the very place that its word says**, and only if that place is marked. -/
theorem jumpTarget_load_eq_ok {code : Bytes} {dest : Word} {target : Nat} :
    (f.load code).jumpTarget dest = .ok target ↔
      target = dest.toNat ∧ (Code.jumpTargets code)[target]? = some true := by
  have hsize : (f.load code).code.size = code.length := rfl
  have htargets : ∀ i, (f.load code).targets[i]? = (Code.jumpTargets code)[i]? := fun i =>
    List.getElem?_toArray
  have hlength := Code.length_jumpTargets code
  constructor
  · intro h
    have hmarked := Exec.target_of_jumpTarget h
    rw [htargets] at hmarked
    have hlt := (List.getElem?_eq_some_iff.1 hmarked).1
    rw [hlength] at hlt
    unfold jumpTarget at h
    dsimp only at h
    split_ifs at h
    cases h
    -- the place is inside the code, and so the word was not cut off at its end
    unfold clampOffset at hlt hmarked ⊢
    rw [hsize] at hlt hmarked ⊢
    have hinside : min dest.toNat code.length = dest.toNat := by omega
    rw [hinside] at hmarked ⊢
    exact ⟨rfl, hmarked⟩
  · rintro ⟨rfl, hmarked⟩
    have hlt := (List.getElem?_eq_some_iff.1 hmarked).1
    rw [hlength] at hlt
    have hclamp : clampOffset dest (f.load code).code.size = dest.toNat := by
      unfold clampOffset
      rw [hsize]
      omega
    unfold jumpTarget
    dsimp only
    rw [hclamp, htargets, hmarked]
    rfl

end Frame

/-! ### Turns -/

namespace Exec

variable {env : Setting} {body : Exec Exit} {m : Machine}

/-- The end of a turn that has made moves at its place: behind an instruction without data. -/
theorem goOn_place {x : Exec Unit} (hx : Makes x) (hs : Stays x) (m : Machine) :
    Meets (do x; advance; return (none : Option Exit)) m
      (fun _ m' => m'.frame.fixed = m.frame.fixed ∧ m'.frame.pc = m.frame.pc + 1)
      fun _ _ => True := by
  refine Meets.bind (((hx m).and (hs m)).mono ?_ fun _ _ _ => trivial)
  rintro _ m₁ ⟨hmoves, hstays, -⟩
  exact ⟨hmoves.fixed, congrArg (· + 1) hstays.pc⟩

/-- **Where a turn leads.** -/
theorem turn_place (env : Setting) (body : Exec Exit) (byte : UInt8) (m : Machine) :
    Meets (turn env body byte) m
      (fun exit m' => exit = none → m.frame.GoesTo byte m'.frame) fun _ _ => True := by
  have hdata := Opcode.carried_ofByte byte
  have hstep := (step_performs env byte m).and (step_leads env byte m)
  refine Meets.bind (hstep.mono ?_ fun _ _ _ => trivial)
  rintro ctl m' ⟨⟨mid, hmoves, hends⟩, hleads⟩
  have hfixed := hmoves.fixed
  -- once a frame below is left, the turn ends behind an instruction without data
  have resumes : ∀ (m₁ : Machine) {x : Exec Unit}, Makes x → Stays x → m₁.frame = mid.frame →
      m₁.frame.pc = m.frame.pc → Code.dataSize byte = 0 →
      Meets (do x; advance; return (none : Option Exit)) m₁
        (fun exit m₂ => exit = none → m.frame.GoesTo byte m₂.frame) fun _ _ => True := by
    intro m₁ x hmakes hstays hframe hpc hbare
    refine (goOn_place hmakes hstays m₁).mono ?_ fun _ _ h => h
    rintro _ m₂ ⟨hfixed₂, hpc₂⟩ -
    exact ⟨hfixed₂.trans (hframe ▸ hfixed), .inl (by rw [hpc₂, hpc, hbare])⟩
  cases hends with
  | next =>
    cases hleads with
    | next pc =>
      refine fun _ => ⟨hfixed, .inl ?_⟩
      show m'.frame.pc + 1 = _
      omega
  | jumped =>
    cases hleads with
    | jumped jumps target =>
      exact fun _ => ⟨hfixed, .inr ⟨jumps.imp Opcode.ofByte_eq_jump.1 Opcode.ofByte_eq_jumpi.1,
        target⟩⟩
  | exit how => exact nofun
  | @call c gas offset size _ _ _ =>
    cases hleads with
    | call asks stays =>
      rw [asks] at hdata
      refine Meets.bind (descend_meets (fun r w _ => ?_) fun _ _ => trivial)
      have taken := resumes
        { mid with world := w, gas := gas.refund r.gasRemaining Opcode.call.label }
        (takeCall_makes offset size r) (takeCall_stays offset size r) rfl stays.pc hdata.symm
      exact taken
  | @create c gas _ _ _ =>
    cases hleads with
    | create asks stays _ =>
      rw [asks] at hdata
      refine Meets.bind (descend_meets (fun r w _ => ?_) fun _ _ => trivial)
      have taken := resumes
        { mid with world := w, gas := gas.refund r.gasRemaining Opcode.create.label }
        (takeCreation_makes r) (takeCreation_stays r) rfl stays.pc hdata.symm
      exact taken

/-! ### Jumps that are taken -/

/-- The machine has jumped to the word on top of the stack. -/
def Lands (m m' : Machine) : Prop :=
  ∃ dest, m.frame.stack.top? = some dest ∧ m.frame.jumpTarget dest = .ok m'.frame.pc

theorem pop_meets (m : Machine) : Meets pop m
    (fun w m' => m.frame.stack.top? = some w ∧ m'.frame.fixed = m.frame.fixed) fun _ _ => True := by
  refine meets_inspect ?_
  cases m.frame.stack with
  | mk words height =>
    cases words with
    | nil => exact Meets.throw trivial
    | cons w words => exact ⟨rfl, rfl⟩

theorem popTwo_meets (m : Machine) : Meets popTwo m
    (fun ws m' => m.frame.stack.top? = some ws.1 ∧ m'.frame.fixed = m.frame.fixed)
      fun _ _ => True := by
  refine Meets.bind (meets_inspect ?_)
  unfold Stack.popMany
  split
  · rename_i htwo
    refine ⟨?_, rfl⟩
    show m.frame.stack.words.head? = some _
    rw [List.head?_eq_getElem?, List.getElem?_eq_getElem (by omega)]
    simp [Vector.get]
  · exact Meets.throw trivial

/-- Where a word leads is a matter of the code. -/
theorem jumpTarget_of_fixed {f f' : Frame} (h : f'.fixed = f.fixed) (dest : Word) :
    f'.jumpTarget dest = f.jumpTarget dest := by
  unfold Frame.jumpTarget
  rw [Frame.code_of_fixed h, Frame.targets_of_fixed h]

/-- A jump to the word that was on top of the stack. -/
theorem jumpTo_lands {dest : Word} {m₁ : Machine} (htop : m.frame.stack.top? = some dest)
    (hfixed : m₁.frame.fixed = m.frame.fixed) :
    Meets (jumpTo dest) m₁ (fun ctl m' => ctl = .jumped ∧ Lands m m') fun _ _ => True := by
  refine Meets.bind (meets_inspect ?_)
  rw [jumpTarget_of_fixed hfixed]
  cases h : m.frame.jumpTarget dest with
  | error e => trivial
  | ok target => exact ⟨rfl, dest, htop, h⟩

/-- `JUMP` jumps. -/
theorem step_jump (env : Setting) (m : Machine) :
    Meets (step env 0x56) m (fun ctl m' => ctl = .jumped ∧ Lands m m') fun _ _ => True := by
  refine Meets.bind ((charge_meets _ _ m).mono ?_ fun _ _ _ => trivial)
  rintro _ m₁ ⟨-, hframe⟩
  refine Meets.bind ((pop_meets m₁).mono ?_ fun _ _ _ => trivial)
  rintro dest m₂ ⟨htop, hfixed⟩
  rw [hframe] at htop hfixed
  exact jumpTo_lands htop hfixed

/-- `JUMPI` goes on, or jumps. -/
theorem step_jumpi (env : Setting) (m : Machine) :
    Meets (step env 0x57) m (fun ctl m' => ctl = .next ∨ ctl = .jumped ∧ Lands m m')
      fun _ _ => True := by
  refine Meets.bind ((charge_meets _ _ m).mono ?_ fun _ _ _ => trivial)
  rintro _ m₁ ⟨-, hframe⟩
  refine Meets.bind ((popTwo_meets m₁).mono ?_ fun _ _ _ => trivial)
  rintro ⟨dest, condition⟩ m₂ ⟨htop, hfixed⟩
  rw [hframe] at htop hfixed
  show Meets (if condition = 0 then pure .next else jumpTo dest) m₂ _ _
  split_ifs
  · exact Meets.pure (.inl rfl)
  · exact (jumpTo_lands htop hfixed).mono (fun _ _ h => .inr h) fun _ _ h => h

/-- **Only jumps jump**, and they lead to the word on top of the stack. -/
theorem lands_of_jumped {byte : UInt8} {m' : Machine} (h : step env byte m = .ok .jumped m') :
    (byte = 0x56 ∨ byte = 0x57) ∧ Lands m m' := by
  cases (step_leads env byte m).of_ok h with
  | jumped jumps _ =>
    obtain hjump | hjumpi := jumps
    · obtain rfl := Opcode.ofByte_eq_jump.1 hjump
      exact ⟨.inl rfl, ((step_jump env m).of_ok h).2⟩
    · obtain rfl := Opcode.ofByte_eq_jumpi.1 hjumpi
      obtain hnext | ⟨-, hlands⟩ := (step_jumpi env m).of_ok h
      · cases hnext
      · exact ⟨.inr rfl, hlands⟩

/-! ### Runs -/

/-- A run, with the machine that each of its iterations starts on. -/
def traced (env : Setting) : Nat → Machine → List Machine × EStateM.Result Stop Machine Exit
  | 0, m => ([], .error (.abort .unfinished) m)
  | steps + 1, m =>
    match m.frame.code[m.frame.pc]? with
    | none => ([m], .ok (.returned []) m)
    | some byte =>
      match turn env (run env steps) byte m with
      | .error stop m' => ([m], .error stop m')
      | .ok (some how) m' => ([m], .ok how m')
      | .ok none m' => (m :: (traced env steps m').1, (traced env steps m').2)

/-- What is traced is the run. -/
theorem traced_snd (env : Setting) (steps : Nat) (m : Machine) :
    (traced env steps m).2 = run env steps m := by
  induction steps generalizing m with
  | zero => rfl
  | succ steps ih =>
    rw [run_succ, bind_apply]
    unfold traced inspect
    dsimp only
    cases m.frame.code[m.frame.pc]? with
    | none => rfl
    | some byte =>
      dsimp only
      rw [bind_apply]
      cases turn env (run env steps) byte m with
      | error stop m' => rfl
      | ok exit m' =>
        cases exit with
        | some how => rfl
        | none => exact ih m'

/-- **A run is on track at every iteration** if it is at the first. -/
theorem traced_onTrack {steps : Nat} {m m' : Machine} (h : m.frame.OnTrack)
    (hm' : m' ∈ (traced env steps m).1) :
    m'.frame.OnTrack ∧ m'.frame.fixed = m.frame.fixed := by
  induction steps generalizing m with
  | zero => cases hm'
  | succ steps ih =>
    unfold traced at hm'
    split at hm'
    · obtain rfl := List.mem_singleton.1 hm'
      exact ⟨h, rfl⟩
    · rename_i byte next
      split at hm'
      · obtain rfl := List.mem_singleton.1 hm'
        exact ⟨h, rfl⟩
      · obtain rfl := List.mem_singleton.1 hm'
        exact ⟨h, rfl⟩
      · rename_i m₁ hturn
        have hto := (turn_place env (run env steps) byte m).of_ok hturn rfl
        obtain rfl | hrest := List.mem_cons.1 hm'
        · exact ⟨h, rfl⟩
        · obtain ⟨htrack, hfixed⟩ := ih (h.goesTo next hto) hrest
          exact ⟨htrack, hfixed.trans hto.1⟩

/-! ### The start of a run -/

/-- A call starts at the front of the code of the account that is called. -/
theorem openCall_loads {c : Call} {m₁ : Machine} (h : openCall env c m = .ok true m₁) :
    ∃ f, m₁.frame = Frame.load f (m₁.world.view.codeAt env.store c.address) := by
  obtain ⟨_, _, -, h⟩ := bind_eq_ok h
  obtain ⟨_, m₂, -, h⟩ := bind_eq_ok h
  obtain ⟨code, m₃, hcode, h⟩ := bind_eq_ok h
  cases hcode
  split_ifs at h
  · cases h
  · cases h
    exact ⟨m₂.frame, rfl⟩

/-- A creation starts at the front of the code that it was given. -/
theorem openCreation_loads {c : Creation} {address : Address} {m₁ : Machine}
    (h : openCreation env address c m = .ok () m₁) : ∃ f, m₁.frame = Frame.load f c.initCode := by
  obtain ⟨_, _, -, h⟩ := bind_eq_ok h
  obtain ⟨_, _, -, h⟩ := bind_eq_ok h
  obtain ⟨_, m₂, -, h⟩ := bind_eq_ok h
  cases h
  exact ⟨m₂.frame, rfl⟩

end Exec

open Exec in
/-- **Execution never enters data.** The places marked for jumps are those of the `JUMPDEST` bytes
at which the decoding from the front has an instruction start; a jump to any word leads to the very
place that the word says, if it is marked, and nowhere otherwise. Every frame starts at the front of
its code, and whatever a run of it does, in any number of steps, each of its iterations is behind
the code or where an instruction starts, and every jump that is taken, which only `JUMP` and `JUMPI`
take and `JUMP` always does, leads to a marked place. -/
theorem never_enters_data :
    (∀ code i, (Code.jumpTargets code)[i]? = some true ↔
      code[i]? = some 0x5b ∧ Code.Starts code i) ∧
    (∀ f code dest target, Frame.jumpTarget (Frame.load f code) dest = .ok target ↔
      target = dest.toNat ∧ (Code.jumpTargets code)[target]? = some true) ∧
    (∀ env w m, (∀ c : Call, c.Starts env w m →
        ∃ f, m.frame = Frame.load f (m.world.view.codeAt env.store c.address)) ∧
      ∀ c : Creation, c.Starts env w m → ∃ f, m.frame = Frame.load f c.initCode) ∧
    ∀ env steps m f code, m.frame = Frame.load f code →
      (traced env steps m).2 = run env steps m ∧
      ∀ m' ∈ (traced env steps m).1,
        m'.frame.code = code.toArray ∧
        (code.length ≤ m'.frame.pc ∨ Code.Starts code m'.frame.pc) ∧
        ∀ byte ctl m'', step env byte m' = .ok ctl m'' →
          (byte = 0x56 → ctl = .jumped) ∧
          (ctl = .jumped → (byte = 0x56 ∨ byte = 0x57) ∧
            m'.frame.stack.top? = some (natWord m''.frame.pc) ∧
            (Code.jumpTargets code)[m''.frame.pc]? = some true) := by
  refine ⟨fun _ _ => Code.jumpTargets_eq_true_iff, fun _ _ _ _ => Frame.jumpTarget_load_eq_ok,
    fun env w m => ⟨fun c hc => openCall_loads hc.2, ?_⟩, fun env steps m f code hm =>
      ⟨traced_snd env steps m, fun m' hm' => ?_⟩⟩
  · rintro c ⟨-, view, -, hopen⟩
    exact openCreation_loads hopen
  · obtain ⟨htrack, hfixed⟩ := traced_onTrack (hm ▸ Frame.onTrack_load f code) hm'
    have hcode : m'.frame.code = code.toArray := by
      rw [Frame.code_of_fixed hfixed, hm]
      rfl
    have hplace := htrack.place
    rw [hcode] at hplace
    refine ⟨hcode, hplace, fun byte ctl m'' hstep => ⟨?_, ?_⟩⟩
    · rintro rfl
      exact ((step_jump env m').of_ok hstep).1
    · rintro rfl
      obtain ⟨hjump, dest, htop, htarget⟩ := lands_of_jumped hstep
      rw [jumpTarget_of_fixed hfixed, hm] at htarget
      obtain ⟨hdest, hmarked⟩ := Frame.jumpTarget_load_eq_ok.1 htarget
      refine ⟨hjump, ?_, hmarked⟩
      rw [htop, hdest, natWord, BitVec.ofNat_toNat, BitVec.setWidth_eq]

/-! ### Data that spells instructions -/

namespace SpelledData

/-- Jumps over two bytes of data that spell `JUMPDEST`, and ends in a `PUSH32` without data. -/
def code : Bytes := [0x60, 6, 0x56, 0x61, 0x5b, 0x5b, 0x5b, 0x58, 0x7f]

/-- The standard parameters, on a store without accounts. -/
def env : Setting := ⟨.standard, .ofHeader .genesis ⟨1⟩ 1000, .ofAccounts []⟩

/-- The machine at the front of the code. -/
def start : Machine :=
  ⟨⟨.fresh, .untracked⟩, .bounded 1000, (Frame.fresh ⟨2⟩ ⟨1⟩ 0 [] 0).load code⟩

end SpelledData

open SpelledData in
/-- The run goes from the jump to the third `JUMPDEST` byte, and to the last instruction, whose data
the end of the code cuts off. -/
theorem never_enters_data_spelled :
    start.frame = (Frame.fresh ⟨2⟩ ⟨1⟩ 0 [] 0).load code ∧
    (Exec.traced env 10 start).1.map (·.frame.pc) = [0, 2, 6, 7, 8, 41] ∧
    ¬Code.Starts code 4 ∧
    ∃ m ∈ (Exec.traced env 10 start).1, ∃ m', Exec.step env 0x56 m = .ok .jumped m' ∧
      m'.frame.pc = 6 ∧ (Code.jumpTargets code)[6]? = some true ∧ Code.Starts code 6 := by
  have hload : start.frame = (Frame.fresh ⟨2⟩ ⟨1⟩ 0 [] 0).load code := rfl
  have hplaces : (Exec.traced env 10 start).1.map (·.frame.pc) = [0, 2, 6, 7, 8, 41] := by
    decide +kernel
  have hjump : ((Exec.traced env 10 start).1[1]?).bind (fun m =>
      match Exec.step env 0x56 m with
      | .ok .jumped m' => some m'.frame.pc
      | _ => none) = some 6 := by decide +kernel
  obtain ⟨htargets, -, -, hruns⟩ := never_enters_data
  obtain ⟨-, htrail⟩ := hruns env 10 start _ code hload
  have hdata : ¬Code.Starts code 4 := fun h => by
    have hmarked := (htargets code 4).2 ⟨rfl, h⟩
    revert hmarked
    decide
  obtain ⟨m, hm, hread⟩ := Option.bind_eq_some_iff.1 hjump
  have hmem := List.mem_of_getElem? hm
  split at hread
  · rename_i m' hstep
    obtain ⟨-, -, hlands⟩ := htrail m hmem
    obtain ⟨-, -, hmarked⟩ := (hlands 0x56 _ m' hstep).2 rfl
    rw [Option.some.inj hread] at hmarked
    exact ⟨hload, hplaces, hdata, m, hmem, m', hstep, Option.some.inj hread, hmarked,
      ((htargets code 6).1 hmarked).2⟩
  · cases hread

end MeteredLedger
