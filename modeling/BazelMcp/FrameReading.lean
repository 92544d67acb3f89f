import BazelMcp.Framing
import Mathlib.Tactic.Ring

/-! The blocking reader of one frame. It parses the length byte by byte from a
reader, while the incremental decoder inspects the first bytes of a slice; on
every byte string both find the same frames and stop for the same reason, and
both read back what `write_varint` writes. -/
namespace BazelMcp.Framing
open Segments List IncrementalStreamDecoder

variable {δ σ V : Type}

/-- The loop of `read_varint`: the shifts 0, 7, …, 63. A byte string has no error but its end. -/
def readVarintLoop : Nat → Nat → Nat → Bytes → Except (FrameError δ) (Option (Nat × Bytes))
  | 0, _, _, _ => .error .invalidVarint
  | _+1, shift, _, [] => if shift = 0 then .ok none else .error .truncated
  | rounds+1, shift, value, byte :: rest =>
    let payload := (byte &&& 0x7f).toNat
    if shift = 63 ∧ 1 < payload then .error .invalidVarint else
      let value := value ||| (payload <<< shift)
      if byte &&& 0x80 = 0 then .ok (some (value,rest)) else readVarintLoop rounds (shift+7) value rest

def readVarint (reader : Bytes) : Except (FrameError δ) (Option (Nat × Bytes)) := readVarintLoop 10 0 0 reader

def readFrame (reader : Bytes) (maxBytes : Nat) : Except (FrameError δ) (Option (Bytes × Bytes)) :=
  match readVarint reader with
  | .error error => .error error
  | .ok none => .ok none
  | .ok (some (length,rest)) =>
    if maxBytes < length then .error (.tooLarge length maxBytes)
    else if rest.length < length then .error .truncated
    else .ok (some (rest.take length,rest.drop length))

def writeVarint (value : Nat) : Bytes :=
  if 0x80 ≤ value then (UInt8.ofNat (value % 128) ||| 0x80) :: writeVarint (value/128) else [UInt8.ofNat value]
  termination_by value

/-! ### The length as both readers see it -/

theorem readVarintLoop_header (rounds index value : Nat) (bytes : Bytes) (whole : index+rounds = 10) :
    (readVarintLoop rounds (index*7) value bytes : Except (FrameError δ) (Option (Nat × Bytes))) =
      match header index value (bytes.take rounds) with
      | .short =>
        if rounds ≤ bytes.length then .error .invalidVarint else if index+bytes.length = 0 then .ok none else .error .truncated
      | .invalid => .error .invalidVarint
      | .ends prefixBytes value => .ok (some (value,bytes.drop (prefixBytes-index))) := by
  induction rounds generalizing index value bytes with
  | zero => simp [readVarintLoop,header]
  | succ rounds ih =>
    cases bytes with
    | nil =>
      simp only [readVarintLoop,header,take_nil,length_nil]
      by_cases first : index = 0
      · subst first
        simp
      · have shifted : index*7 ≠ 0 := by omega
        simp [first,shifted]
    | cons byte rest =>
      simp only [readVarintLoop,header,take_succ_cons]
      split
      · rfl
      split
      · simp
      have next := ih (index+1) (value ||| (byte &&& 0x7f).toNat <<< (index*7)) rest (by omega)
      rw [show index*7+7 = (index+1)*7 by omega,next]
      cases read : header (index+1) (value ||| (byte &&& 0x7f).toNat <<< (index*7)) (rest.take rounds) with
      | short =>
        simp only [length_cons]
        by_cases long : rounds ≤ rest.length
        · simp [long]
        · simp [long]
      | invalid => rfl
      | ends prefixBytes length =>
        have bounds := header_ends_bounds read
        simp only
        rw [show prefixBytes-index = (prefixBytes-(index+1))+1 by omega,drop_succ_cons]

theorem readVarint_head (reader : Bytes) :
    (readVarint reader : Except (FrameError δ) (Option (Nat × Bytes))) =
      match head reader with
      | .short => if 10 ≤ reader.length then .error .invalidVarint else if reader = [] then .ok none else .error .truncated
      | .invalid => .error .invalidVarint
      | .ends prefixBytes value => .ok (some (value,reader.drop prefixBytes)) := by
  have loop := @readVarintLoop_header δ 10 0 0 reader rfl
  unfold readVarint head
  rw [show (0 : Nat) = 0*7 from rfl,loop]
  cases header 0 0 (reader.take 10) with
  | short =>
    simp only [Nat.zero_add,length_eq_zero_iff]
  | invalid | ends prefixBytes value => rfl

/-! ### Frames -/

/-- The number that bytes of seven bits each announce, lowest first, every byte but the last with its high bit. -/
def lengthOf : Bytes → Option Nat
  | [] => none
  | byte::rest =>
    if byte.toNat < 128 then if rest = [] then some byte.toNat else none
    else (lengthOf rest).map fun higher => byte.toNat-128+128*higher

def Framed (payload framed : Bytes) : Prop :=
  ∃ announced, framed = announced ++ payload ∧ announced.length ≤ 10 ∧ lengthOf announced = some payload.length

theorem or_shifted {read shift : Nat} (below : read < 2^shift) (payload : Nat) : read ||| (payload <<< shift) = read + payload*2^shift := by
  rw [Nat.or_comm,← Nat.shiftLeft_add_eq_or_of_lt below,Nat.shiftLeft_eq,Nat.add_comm]

theorem byte_bits (byte : UInt8) : (byte &&& 0x7f).toNat = byte.toNat%128 ∧ (byte &&& 0x80 = 0 ↔ byte.toNat < 128) := by
  have each : ∀ value : Fin 256, (UInt8.ofNat value.val &&& 0x7f).toNat = (UInt8.ofNat value.val).toNat%128 ∧
      (UInt8.ofNat value.val &&& 0x80 = 0 ↔ (UInt8.ofNat value.val).toNat < 128) := by decide +kernel
  have this := each ⟨byte.toNat,byte.toNat_lt⟩
  rwa [UInt8.ofNat_toNat] at this

theorem pow_step (index : Nat) : 2^((index+1)*7) = 2^(index*7)*128 := by
  rw [Nat.succ_mul,Nat.pow_add]

/-- The bytes read so far are the bits below the shift, and the number that is left fits into those above it. -/
theorem header_announced {announced : Bytes} {value : Nat} (announces : lengthOf announced = some value) (index read : Nat)
    (rest : Bytes) (short : index+announced.length ≤ 10) (below : read < 2^(index*7)) (fits : value < 2^(64-index*7)) :
    header index read (announced ++ rest) = .ends (index+announced.length) (read+value*2^(index*7)) := by
  induction announced generalizing value index read with
  | nil => cases announces
  | cons byte tail ih =>
    obtain ⟨bits,ending⟩ := byte_bits byte
    have small := byte.toNat_lt
    unfold lengthOf at announces
    simp only [length_cons] at short
    split at announces
    · rename_i last
      split at announces
      · rename_i alone
        cases announces
        subst alone
        have valid : ¬ (index*7 = 63 ∧ 1 < byte.toNat) := by
          intro ⟨late,large⟩
          rw [late] at fits
          omega
        have exactly : byte.toNat%128 = byte.toNat := Nat.mod_eq_of_lt last
        simp only [cons_append,nil_append,header,bits,exactly,if_neg valid,if_pos (ending.mpr last),or_shifted below,
          length_singleton]
      · cases announces
    · rename_i continues
      obtain ⟨higher,more,rfl⟩ := Option.map_eq_some_iff.mp announces
      have someTail : tail ≠ [] := by
        intro empty
        rw [empty] at more
        cases more
      have tailLength := length_pos_of_ne_nil someTail
      have valid : ¬ (index*7 = 63 ∧ 1 < byte.toNat%128) := by omega
      have digit : byte.toNat%128 = byte.toNat-128 := by omega
      have widths : 2^(64-(index+1)*7)*128 = 2^(64-index*7) := by
        rw [show 64-index*7 = 64-(index+1)*7+7 by omega,Nat.pow_add]
      have step := pow_step index
      have higherBelow : read+byte.toNat%128*2^(index*7) < 2^((index+1)*7) := by
        have most : byte.toNat%128*2^(index*7) ≤ 127*2^(index*7) := Nat.mul_le_mul_right _ (by omega)
        omega
      have notLast : ¬ byte &&& 0x80 = 0 := fun zero => continues (ending.mp zero)
      simp only [cons_append,header,bits,if_neg valid,if_neg notLast,or_shifted below]
      rw [ih more (index+1) _ (by omega) higherBelow (by omega),digit,step]
      simp only [length_cons]
      congr 1
      · omega
      · ring

theorem announced_header {bytes : Bytes} {index read prefixBytes length : Nat} (below : read < 2^(index*7))
    (found : header index read bytes = .ends prefixBytes length) :
    ∃ announced rest value, bytes = announced ++ rest ∧ prefixBytes = index+announced.length ∧ lengthOf announced = some value ∧
      length = read+value*2^(index*7) := by
  induction bytes generalizing index read with
  | nil => cases found
  | cons byte tail ih =>
    obtain ⟨bits,ending⟩ := byte_bits byte
    have small := byte.toNat_lt
    simp only [header] at found
    split at found
    · cases found
    rw [bits,or_shifted below] at found
    split at found
    · rename_i zero
      have last := ending.mp zero
      cases found
      refine ⟨[byte],tail,byte.toNat,rfl,rfl,by simp [lengthOf,last],?_⟩
      rw [Nat.mod_eq_of_lt last]
    rename_i continues
    have large : ¬ byte.toNat < 128 := fun last => continues (ending.mpr last)
    have step := pow_step index
    have higherBelow : read+byte.toNat%128*2^(index*7) < 2^((index+1)*7) := by
      have most : byte.toNat%128*2^(index*7) ≤ 127*2^(index*7) := Nat.mul_le_mul_right _ (by omega)
      omega
    obtain ⟨announced,rest,value,split,size,announces,sum⟩ := ih higherBelow found
    refine ⟨byte::announced,rest,byte.toNat-128+128*value,by rw [split]; rfl,by simp only [length_cons]; omega,?_,?_⟩
    · simp [lengthOf,large,announces]
    · have digit : byte.toNat%128 = byte.toNat-128 := by omega
      rw [sum,digit,step]
      ring

theorem saturatingAdd_mono {left right : Nat} (le : left ≤ right) (more : Nat) :
    saturatingAdd left more ≤ saturatingAdd right more := by
  unfold saturatingAdd
  omega

theorem saturatingAdd_small {left right : Nat} (few : left ≤ 10) (small : right ≤ defaultMaxFrameBytes) :
    saturatingAdd left right = left+right := by
  have limit : defaultMaxFrameBytes = 0x4000000 := rfl
  unfold saturatingAdd usizeMax
  omega

theorem head_announced {announced : Bytes} {value : Nat} (announces : lengthOf announced = some value) (short : announced.length ≤ 10)
    (fits : value < 2^64) (rest : Bytes) : head (announced ++ rest) = .ends announced.length value := by
  unfold head
  rw [take_append,take_of_length_le short]
  have read := header_announced announces 0 0 (rest.take (10-announced.length)) (by omega) (by decide) fits
  simpa using read

theorem cut_complete {payload framed : Bytes} (complete : Framed payload framed) (small : payload.length ≤ defaultMaxFrameBytes)
    (rest : Bytes) : ∃ skip, (@frames δ defaultMaxFrameBytes).cut (framed ++ rest) = .take skip framed.length ∧
      framed.drop skip = payload := by
  obtain ⟨announced,rfl,short,announces⟩ := complete
  have limit : defaultMaxFrameBytes = 0x4000000 := rfl
  have read := head_announced announces short (by omega) (payload ++ rest)
  have sum := saturatingAdd_small short small
  refine ⟨announced.length,?_,drop_left⟩
  change cutOf (inspectFrame _ _) = _
  rw [append_assoc,inspectFrame_head,read]
  simp only [judge,if_neg (Nat.not_lt.mpr small),sum,length_append]
  rw [if_pos (by omega)]
  simp only [cutOf,sum]

/-- A complete frame is handed over whole. -/
theorem consume_frame {payload framed : Bytes} (body : σ → Bytes → Bytes → Except δ (IncrementalStreamControl × σ))
    (session : Session δ σ) (active : session.1.isTerminal = false) (complete : Framed payload framed)
    (small : payload.length ≤ defaultMaxFrameBytes) (rest : Bytes) :
    consume (frames defaultMaxFrameBytes) (listener body) session (framed ++ rest) =
      if (decodeFrame body session payload framed).1.isTerminal then (decodeFrame body session payload framed,framed ++ rest)
      else consume (frames defaultMaxFrameBytes) (listener body) (decodeFrame body session payload framed) rest := by
  obtain ⟨skip,cut,payloadHere⟩ := @cut_complete δ _ _ complete small rest
  rw [consume_take _ _ active cut,Consumer.taken,take_left,drop_left,payloadHere]
  rfl

theorem complete_cut {buffer : Bytes} {skip size : Nat} (found : (@frames δ defaultMaxFrameBytes).cut buffer = .take skip size) :
    Framed ((buffer.take size).drop skip) (buffer.take size) ∧ ((buffer.take size).drop skip).length ≤ defaultMaxFrameBytes := by
  obtain ⟨value,complete,rfl⟩ := cutOf_take found
  obtain ⟨read,small,inside⟩ := inspectFrame_complete.mp complete
  obtain ⟨announced,rest,length,split,number,announces,sum⟩ := announced_header (by decide) read
  rw [Nat.zero_add] at number sum
  rw [Nat.zero_mul,Nat.pow_zero,Nat.mul_one] at sum
  subst number sum
  have short : announced.length ≤ 10 := by
    have total := congrArg length split
    rw [length_append,length_take] at total
    omega
  rw [saturatingAdd_small short small] at inside ⊢
  have front : buffer.take announced.length = announced := by
    have same := congrArg (take announced.length) split
    rwa [take_take,Nat.min_eq_left short,take_left] at same
  have whole : buffer.take (announced.length+value) = announced ++ (buffer.take (announced.length+value)).drop announced.length := by
    have parts := take_append_drop announced.length (buffer.take (announced.length+value))
    rw [take_take,Nat.min_eq_left (Nat.le_add_right _ _),front] at parts
    exact parts.symm
  have payload : ((buffer.take (announced.length+value)).drop announced.length).length = value := by
    rw [length_drop,length_take]
    omega
  exact ⟨⟨announced,whole,short,payload.symm ▸ announces⟩,by omega⟩

/-! ### What the writer writes -/

theorem lengthOf_writeVarint (value : Nat) : lengthOf (writeVarint value) = some value := by
  have each : ∀ digit : Fin 128, (UInt8.ofNat digit.val ||| 0x80).toNat = digit.val+128 := by decide
  induction value using Nat.strongRecOn with
  | ind value ih =>
    rw [writeVarint]
    split
    · have byte := each ⟨value%128,Nat.mod_lt value (by decide)⟩
      dsimp only at byte
      rw [lengthOf,ih (value/128) (by omega),byte,if_neg (by omega)]
      simp only [Option.map_some,Option.some.injEq]
      omega
    · have byte : (UInt8.ofNat value).toNat = value := by
        rw [UInt8.toNat_ofNat']
        omega
      simp only [lengthOf,byte]
      rw [if_pos (by omega),if_pos trivial]

theorem writeVarint_length (value rounds : Nat) (fits : value < 2^((rounds+1)*7)) : (writeVarint value).length ≤ rounds+1 := by
  induction rounds generalizing value with
  | zero =>
    rw [writeVarint,if_neg (by omega)]
    rfl
  | succ rounds ih =>
    rw [writeVarint]
    split
    · have shrinks : value/128 < 2^((rounds+1)*7) := by
        rw [Nat.div_lt_iff_lt_mul (by decide)]
        have widths : 2^((rounds+1)*7)*128 = 2^((rounds+1+1)*7) := by
          rw [show (rounds+1+1)*7 = (rounds+1)*7+7 by omega,Nat.pow_add]
        omega
      have shorter := ih (value/128) shrinks
      simp only [length_cons]
      omega
    · simp

theorem head_writeVarint {value : Nat} (fits : value < 2^64) (rest : Bytes) :
    head (writeVarint value ++ rest) = .ends (writeVarint value).length value :=
  head_announced (lengthOf_writeVarint value) (writeVarint_length value 9 (by omega)) fits rest

/-! ### Reading until the end -/

theorem readFrame_shorter {reader frame rest : Bytes} {maxBytes : Nat}
    (read : @readFrame δ reader maxBytes = .ok (some (frame,rest))) : rest.length < reader.length := by
  unfold readFrame at read
  rw [readVarint_head] at read
  cases announced : head reader with
  | short =>
    rw [announced] at read
    by_cases long : 10 ≤ reader.length
    · simp [long] at read
    · by_cases ended : reader = []
      · simp [ended] at read
      · simp [long,ended] at read
  | invalid =>
    rw [announced] at read
    cases read
  | ends prefixBytes value =>
    have bounds := header_ends_bounds announced
    rw [announced] at read
    dsimp only at read
    split at read
    · cases read
    split at read
    · cases read
    · cases read
      simp only [length_drop,length_take] at bounds ⊢
      omega

def readFrames (maxBytes : Nat) (reader : Bytes) : List Bytes × Option (FrameError δ) :=
  match _read : @readFrame δ reader maxBytes with
  | .error error => ([],some error)
  | .ok none => ([],none)
  | .ok (some (frame,rest)) => (frame :: (readFrames maxBytes rest).1,(readFrames maxBytes rest).2)
termination_by reader.length
decreasing_by exact readFrame_shorter _read

theorem readFrame_cut (reader : Bytes) {maxBytes : Nat} (room : maxBytes+10 ≤ usizeMax) :
    @readFrame δ reader maxBytes =
      match (@frames δ maxBytes).cut reader with
      | .take skip size => .ok (some ((reader.take size).drop skip,reader.drop size))
      | .fail error => .error error
      | .more => if reader = [] then .ok none else .error .truncated := by
  have inspected : (@frames δ maxBytes).cut reader = cutOf (inspectFrame reader maxBytes) := rfl
  rw [inspected,inspectFrame_head,readFrame,readVarint_head]
  cases announced : head reader with
  | short =>
    by_cases long : 10 ≤ reader.length
    · simp [judge,long,cutOf]
    · by_cases ended : reader = []
      · simp [judge,ended,cutOf]
      · simp [judge,long,ended,cutOf]
  | invalid => rfl
  | ends prefixBytes value =>
    have bounds := header_ends_bounds announced
    simp only [length_take] at bounds
    by_cases large : maxBytes < value
    · simp [judge,large,cutOf]
    have sum : saturatingAdd prefixBytes value = prefixBytes+value := by
      unfold saturatingAdd
      omega
    have started : reader ≠ [] := by
      intro ended
      simp [ended] at bounds
      omega
    simp only [judge,if_neg large,sum,length_drop]
    by_cases whole : prefixBytes+value ≤ reader.length
    · rw [if_neg (by omega),if_pos whole]
      simp only [cutOf,sum]
      rw [drop_take,drop_drop]
      simp
    · rw [if_pos (by omega),if_neg whole]
      simp [cutOf,started]

theorem readFrames_take {reader : Bytes} {maxBytes skip size : Nat} (room : maxBytes+10 ≤ usizeMax)
    (cut : (@frames δ maxBytes).cut reader = .take skip size) : @readFrames δ maxBytes reader =
      ((reader.take size).drop skip :: (@readFrames δ maxBytes (reader.drop size)).1,
        (readFrames maxBytes (reader.drop size)).2) := by
  have read := @readFrame_cut δ reader maxBytes room
  rw [cut] at read
  rw [readFrames]
  split <;> simp_all

theorem readFrames_stop {reader : Bytes} {maxBytes : Nat} (room : maxBytes+10 ≤ usizeMax)
    (cut : ∀ skip size, (@frames δ maxBytes).cut reader ≠ .take skip size) :
    @readFrames δ maxBytes reader =
      ([],match (@frames δ maxBytes).cut reader with
        | .fail error => some error
        | _ => if reader = [] then none else some .truncated) := by
  have read := @readFrame_cut δ reader maxBytes room
  rw [readFrames]
  cases found : (@frames δ maxBytes).cut reader with
  | take skip size => exact absurd found (cut skip size)
  | fail error =>
    rw [found] at read
    split <;> simp_all
  | more =>
    rw [found] at read
    dsimp only at read ⊢
    split at read
    · split <;> simp_all
    · split <;> simp_all

section Agreement
variable (step : σ → Bytes → Bytes → σ)

/-- The closure of a decoder that always succeeds, under a visitor that always goes on. -/
abbrev willing (state : σ) (frame framed : Bytes) : Except δ (IncrementalStreamControl × σ) := .ok (.continue,step state frame framed)

/-- Far from its limits the consumer takes the frames that `read_frame` reads, and stops where it stops. -/
theorem consume_reads {maxBytes : Nat} (room : maxBytes+10 ≤ usizeMax) (log : σ → List Bytes)
    (logs : ∀ state frame framed, log (step state frame framed) = log state ++ [frame]) (session : Session δ σ) (buffer : Bytes)
    (active : session.1.isTerminal = false) (bytes : session.1.decodedBytes+buffer.length ≤ session.1.maxStreamBytes)
    (events : session.1.eventCount+buffer.length ≤ session.1.maxEvents) :
    log (consume (frames maxBytes) (listener (willing step)) session buffer).1.2 =
        log session.2 ++ (@readFrames δ maxBytes buffer).1 ∧
      ({ (consume (frames maxBytes) (listener (willing step)) session buffer).1.1 with
        pending := (consume (frames maxBytes) (listener (willing step)) session buffer).2 }).finish.terminalError =
        (readFrames maxBytes buffer).2 := by
  have quiet : session.1.terminalError = none := by
    simpa [isTerminal] using active
  induction left : buffer.length using Nat.strongRecOn generalizing session buffer with
  | ind left ih =>
    cases cut : (@frames δ maxBytes).cut buffer with
    | more =>
      rw [consume_more _ _ _ cut,readFrames_stop room (by simp [cut]),cut]
      simp only [finish,quiet,append_nil,true_and]
      by_cases ended : buffer = []
      · simp [ended]
      · simp [ended]
    | fail error =>
      rw [consume_fail _ _ active cut,readFrames_stop room (by simp [cut]),cut]
      simp [finish,listener]
    | take skip size =>
      have pos := (frames maxBytes).take_pos cut
      have le := (frames maxBytes).take_le cut
      have length : ((buffer.take size).drop skip).length ≤ size := by
        simp only [length_drop,length_take]
        omega
      generalize frameIs : (buffer.take size).drop skip = frame at length
      have small : saturatingAdd session.1.decodedBytes frame.length ≤ session.1.decodedBytes+size :=
        (Nat.min_le_left _ _).trans (Nat.add_le_add_left length _)
      have counted : saturatingAdd session.1.eventCount 1 ≤ session.1.eventCount+1 := Nat.min_le_left _ _
      have decoded : decodeFrame (willing step) session frame (buffer.take size) =
          (advance session.1 frame.length .continue,
            step session.2 frame (buffer.take size)) :=
        decodeFrame_ok (willing step) session (small.trans (by omega)) (by omega) rfl
      have taken : consume (frames maxBytes) (listener (willing step)) session buffer =
          consume (frames maxBytes) (listener (willing step))
            (decodeFrame (willing step) session frame (buffer.take size)) (buffer.drop size) := by
        rw [consume_take _ _ active cut,Consumer.taken,frameIs]
        refine if_neg ?_
        change ¬ (decodeFrame (willing step) session frame (buffer.take size)).1.isTerminal = true
        rw [decoded]
        exact ne_true_of_eq_false active
      have shorter : (buffer.drop size).length = buffer.length-size := length_drop
      rw [taken,decoded,readFrames_take room cut,frameIs]
      have rest := ih (buffer.drop size).length (by omega) (advance session.1 frame.length .continue,
        step session.2 frame (buffer.take size)) (buffer.drop size) active
        (by simp only [advance]; omega) (by simp only [advance]; omega) quiet rfl
      refine ⟨?_,rest.2⟩
      rw [rest.1,logs,append_assoc]
      rfl

end Agreement

def collecting {E : Type} (frameOf : E → Bytes) : Visitor (List Bytes) E := fun log event _ => (.continue,log ++ [frameOf event])

def reading (outcome : StreamOutcome δ × List Bytes) : List Bytes × Option (FrameError δ) := (outcome.2,outcome.1.terminalError)

end BazelMcp.Framing
