import Piton.L2.BufIn

/-! What the input buffers of the L2 deliver when their queues follow the messages of the stream. -/

namespace Piton.L2

open Hw
open Noc (Flit)

/-- What has passed a buffer: the flits taken, the flit that is offered and not yet taken, and what has
gone into and out of the two queues. -/
structure BufInHistory where
  taken : List Flit
  offered : Option Flit
  headerIn : List Flit
  headers : List (List Flit)
  dataIn : List Flit
  data : List (List Flit)

variable {σ : Type} {h d : Nat}

/-- What one cycle takes, offers and delivers. -/
def BufInHistory.record (c : BufInCtrl σ) (g : BufInHistory) (s : BufIn σ h d) (i : BufInInput) :
    BufInHistory where
  taken := g.taken ++ if s.readyIn c i then i.dataIn.toList else []
  offered :=
    match i.dataIn with
    | some f => if s.readyIn c i then none else some f
    | none => g.offered
  headerIn := g.headerIn ++ (s.headerEnter c i).toList
  headers := g.headers ++ if s.headerLeave c i then (s.header c).toList else []
  dataIn := g.dataIn ++ (s.dataEnter c i).toList
  data := g.data ++ if s.dataLeave c i then (s.data c).toList else []

/-- A buffer with the record of what has passed it. -/
def bufIn (c : BufInCtrl σ) (h d : Nat) : Machine (BufIn σ h d × BufInHistory) BufInInput :=
  Machine.withHistory { init := fun s => s = BufIn.init c, step := BufIn.step c }
    ⟨[], none, [], [], [], []⟩ (BufInHistory.record c)

/-- A flit that is offered stays until it is taken, and a flit that begins a message is well formed. -/
def Offers (wf : Flit → Prop) (y : BufIn σ h d × BufInHistory) (i : BufInInput) : Prop :=
  (∀ f ∈ y.2.offered, ∀ x ∈ i.dataIn, x = f) ∧
    (due Flit.len y.2.taken = 0 → ∀ x ∈ i.dataIn, wf x)

instance (wf : Flit → Prop) [DecidablePred wf] (y : BufIn σ h d × BufInHistory) (i : BufInInput) :
    Decidable (Offers wf y i) :=
  haveI (f : Flit) : Decidable (∀ x ∈ i.dataIn, x = f) := Option.decidableForallMem _
  haveI : Decidable (∀ f ∈ y.2.offered, ∀ x ∈ i.dataIn, x = f) := Option.decidableForallMem _
  haveI : Decidable (∀ x ∈ i.dataIn, wf x) := Option.decidableForallMem _
  inferInstanceAs (Decidable (_ ∧ _))

namespace BufIn

variable {c : BufInCtrl σ} {s : BufIn σ h d} {g : BufInHistory} {i : BufInInput}

/-! ### The queues -/

/-- What has gone into the queues has come out in groups or is there still. -/
structure Queues (c : BufInCtrl σ) (s : BufIn σ h d) (g : BufInHistory) : Prop where
  header : ∃ q, s.headerBuf.Delivers c.headerFlits g.headerIn g.headers q
  data : ∃ q, s.dataBuf.Delivers c.dataFlits g.dataIn g.data q

theorem offer_toList {k : Nat} {size : Flit → Nat} {f : Fifo k Flit} {ready : Bool} :
    (if (f.offer size).isSome && ready then (f.offer size).toList else []) =
      if (f.offer size).isSome && ready then [f.group size] else [] := by
  unfold Fifo.offer
  cases f.groupReady size <;> cases ready <;> rfl

theorem groupReady_of_leave {k : Nat} {size : Flit → Nat} {f : Fifo k Flit} {ready : Bool}
    (hl : ((f.offer size).isSome && ready) = true) : f.groupReady size = true := by
  unfold Fifo.offer at hl
  cases hr : f.groupReady size with
  | true => rfl
  | false =>
    rw [hr] at hl
    cases hl

theorem not_full_of_enter {b full : Bool} {x : Option Flit}
    (he : (if b && !full then x else none).isSome = true) : full = false := by
  cases hf : full with
  | false => rfl
  | true =>
    rw [hf, Bool.not_true, Bool.and_false] at he
    cases he

theorem Queues.step (hq : Queues c s g) (hh : ∀ f, 0 < c.headerFlits f)
    (hd : ∀ f, 0 < c.dataFlits f) : Queues c (s.step c i) (g.record c s i) := by
  obtain ⟨⟨q, hheader⟩, q', hdata⟩ := hq
  refine ⟨?_, ?_⟩
  · change ∃ q, (s.step c i).headerBuf.Delivers c.headerFlits
      (g.headerIn ++ (s.headerEnter c i).toList)
      (g.headers ++ if s.headerLeave c i then (s.header c).toList else []) q
    rw [headerLeave, BufIn.header, offer_toList]
    exact hheader.step hh not_full_of_enter groupReady_of_leave
  · change ∃ q, (s.step c i).dataBuf.Delivers c.dataFlits (g.dataIn ++ (s.dataEnter c i).toList)
      (g.data ++ if s.dataLeave c i then (s.data c).toList else []) q
    rw [dataLeave, BufIn.data, offer_toList]
    exact hdata.step hd not_full_of_enter groupReady_of_leave

/-! ### The record of a cycle -/

theorem realReadyIn_of_readyIn (h : s.realReadyIn c = false) : s.readyIn c i = false := by
  rw [readyIn, h, Bool.false_and]

/-- Nothing goes into a queue. -/
theorem record_quiet (hi : i.dataIn = none ∨ s.realReadyIn c = false) :
    (g.record c s i).taken = g.taken ∧ (g.record c s i).headerIn = g.headerIn ∧
      (g.record c s i).dataIn = g.dataIn := by
  unfold BufInHistory.record headerEnter dataEnter
  rcases hi with hi | hr
  · simp only [hi, ite_self, Option.toList_none, List.append_nil, and_self]
  · simp only [realReadyIn_of_readyIn hr, Bool.false_eq_true, if_false, List.append_nil]
    unfold realReadyIn at hr
    cases hm : c.muxHeader s.ctrl with
    | true =>
      rw [hm, if_pos rfl] at hr
      simp [hr]
    | false =>
      rw [hm, if_neg Bool.false_ne_true] at hr
      simp [hr]

variable {x : Flit}

theorem record_header (hx : i.dataIn = some x) (hm : c.muxHeader s.ctrl = true)
    (hr : s.realReadyIn c = true) :
    (g.record c s i).headerIn = g.headerIn ++ [x] ∧ (g.record c s i).dataIn = g.dataIn := by
  unfold BufInHistory.record headerEnter dataEnter
  rw [realReadyIn, hm, if_pos rfl] at hr
  simp [hm, hr, hx]

theorem record_data (hx : i.dataIn = some x) (hm : c.muxHeader s.ctrl = false)
    (hr : s.realReadyIn c = true) :
    (g.record c s i).headerIn = g.headerIn ∧ (g.record c s i).dataIn = g.dataIn ++ [x] := by
  unfold BufInHistory.record headerEnter dataEnter
  rw [realReadyIn, hm, if_neg Bool.false_ne_true] at hr
  simp [hm, hr, hx]

/-- A flit that goes into a queue is taken unless an interrupt stalls it. -/
theorem record_taken (hx : i.dataIn = some x) (hr : s.realReadyIn c = true)
    (hs : c.stall s.ctrl (some x) = false) : (g.record c s i).taken = g.taken ++ [x] := by
  unfold BufInHistory.record readyIn
  simp [hx, hr, hs]

theorem record_stall (hx : i.dataIn = some x) (hs : c.stall s.ctrl (some x) = true) :
    (g.record c s i).taken = g.taken ∧ (g.record c s i).offered = some x := by
  unfold BufInHistory.record readyIn
  simp [hx, hs]

theorem ctrl_step : (s.step c i).ctrl = c.next s.ctrl i.dataIn (s.realReadyIn c) := rfl

end BufIn

/-! ### The messages -/

section

variable (c : BufInCtrl σ) (wf : Flit → Prop) (heads dat : List Flit → List Flit)

/-- A well-formed message gives one header and whole data words. -/
structure Shape : Prop where
  headerPos : ∀ f, 0 < c.headerFlits f
  dataPos : ∀ f, 0 < c.dataFlits f
  header : ∀ {pk n}, IsPacket Flit.len pk n → (∀ f ∈ pk.head?, wf f) →
    ∃ m, IsPacket (c.headerFlits · - 1) (heads pk) m ∧ (n = 0 → m = 0)
  data : ∀ {pk}, IsPacket Flit.len pk 0 → (∀ f ∈ pk.head?, wf f) →
    due (c.dataFlits · - 1) (dat pk) = 0

/-- The header of a message, once all its flits have come. -/
def wholeHeader (pk : List Flit) : Option (List Flit) :=
  (some (heads pk)).filter (Fifo.isWhole c.headerFlits)

/-- The data words of a message; the last one may lack a flit. -/
def dataWords (pk : List Flit) : List (List Flit) := packets (c.dataFlits · - 1) (dat pk)

/-- The queues have been filled from the messages, and with `replay` from the next one. -/
structure Parsed (g : BufInHistory) (replay : List Flit) : Prop where
  wf : ∀ pk ∈ packets Flit.len g.taken, ∀ f ∈ pk.head?, wf f
  headerIn : g.headerIn = (packets Flit.len g.taken).flatMap heads ++ replay
  dataIn : g.dataIn = (packets Flit.len g.taken).flatMap dat
  replay : replay = [] ∨ due Flit.len g.taken = 0 ∧
    ∃ n, n ≠ 0 ∧ IsPacket (c.headerFlits · - 1) replay n

/-- The headers that have left are those of the first messages and the next one is on the output once
it is whole; so it is with the data words. The counts are the flits that have entered and not left. -/
structure Lossless (s : BufIn σ h d) (g : BufInHistory) : Prop where
  headers : g.headers.map some =
    ((packets Flit.len g.taken).map (wholeHeader c heads)).take g.headers.length
  header : s.header c =
    ((packets Flit.len g.taken)[g.headers.length]?).bind (wholeHeader c heads)
  data : g.data = ((packets Flit.len g.taken).flatMap (dataWords c dat)).take g.data.length
  nextData : s.data c = (((packets Flit.len g.taken).flatMap (dataWords c dat))[g.data.length]?).filter
    (Fifo.isWhole c.dataFlits)
  complete : ∀ pk ∈ packets Flit.len g.taken, IsPacket Flit.len pk 0 →
    wholeHeader c heads pk = some (heads pk) ∧ (dataWords c dat pk).flatten = dat pk ∧
      ∀ w ∈ dataWords c dat pk, Fifo.isWhole c.dataFlits w = true
  headerQueue : ∃ q, s.headerBuf.Holds q ∧ g.headerIn = g.headers.flatten ++ q
  dataQueue : ∃ q, s.dataBuf.Holds q ∧ g.dataIn = g.data.flatten ++ q

end

section

variable {c : BufInCtrl σ} {wf : Flit → Prop} {heads dat : List Flit → List Flit} {s : BufIn σ h d}
  {g : BufInHistory} {replay : List Flit}

/-- The last message of a stream, which may lack flits, and the ones before it. -/
theorem Parsed.messages (hp : Parsed c wf heads dat g replay) :
    packets Flit.len g.taken = [] ∨ ∃ ps pk, packets Flit.len g.taken = ps ++ [pk] ∧
      (∀ p ∈ ps, IsPacket Flit.len p 0 ∧ ∀ f ∈ p.head?, wf f) ∧
      IsPacket Flit.len pk (due Flit.len g.taken) ∧ ∀ f ∈ pk.head?, wf f := by
  obtain ⟨hnil, -⟩ | ⟨ps, pk, hps, hwhole, hpk⟩ := packets_spec Flit.len g.taken
  · exact .inl hnil
  · refine .inr ⟨ps, pk, hps, fun p hmem => ⟨hwhole p hmem, ?_⟩, hpk, ?_⟩
    · exact hp.wf p (by rw [hps]; exact List.mem_append_left _ hmem)
    · exact hp.wf pk (by rw [hps]; exact List.mem_append_right _ (List.mem_singleton_self pk))

theorem packets_replay {len : Flit → Nat} (hr : replay = [] ∨ ∃ n, n ≠ 0 ∧ IsPacket len replay n) :
    packets len replay = if replay = [] then [] else [replay] := by
  obtain rfl | ⟨n, -, hpk⟩ := hr
  · rfl
  · have hne : replay ≠ [] := by
      obtain ⟨x, t, rfl, -⟩ := hpk
      exact List.cons_ne_nil x t
    rw [if_neg hne, (cut_isPacket hpk).1]

/-- The groups of the header queue are the headers of the messages. -/
theorem Parsed.packets_headerIn (hp : Parsed c wf heads dat g replay)
    (hs : Shape c wf heads dat) :
    packets (c.headerFlits · - 1) g.headerIn =
      (packets Flit.len g.taken).map heads ++ if replay = [] then [] else [replay] := by
  have hreplay : packets (c.headerFlits · - 1) replay = if replay = [] then [] else [replay] :=
    packets_replay (hp.replay.imp_right And.right)
  rw [hp.headerIn]
  obtain hnil | ⟨ps, pk, hps, hwhole, hpk, hwf⟩ := hp.messages
  · rw [hnil, List.flatMap_nil, List.nil_append, hreplay]
    rfl
  · have hheads : ∀ q ∈ ps.map heads, IsPacket (c.headerFlits · - 1) q 0 := by
      intro q hq
      obtain ⟨p, hmem, rfl⟩ := List.mem_map.1 hq
      obtain ⟨m, hm, hzero⟩ := hs.header (hwhole p hmem).1 (hwhole p hmem).2
      exact hzero rfl ▸ hm
    obtain ⟨m, hm, hzero⟩ := hs.header hpk hwf
    have hlast : packets (c.headerFlits · - 1) (heads pk ++ replay) =
        [heads pk] ++ if replay = [] then [] else [replay] := by
      rcases hp.replay with rfl | ⟨hd, -⟩
      · rw [List.append_nil, (cut_isPacket hm).1]
        rfl
      · obtain ⟨hcut, hdue⟩ := cut_isPacket (hzero hd ▸ hm)
        rw [(cut_append hdue).1, hcut, hreplay]
    rw [hps, List.flatMap_append, List.flatMap_singleton, List.append_assoc, List.flatMap_def,
      packets_flatten hheads, hlast, List.map_append, List.append_assoc]
    rfl

/-- The groups of the data queue are the data words of the messages. -/
theorem Parsed.packets_dataIn (hp : Parsed c wf heads dat g replay) (hs : Shape c wf heads dat) :
    packets (c.dataFlits · - 1) g.dataIn =
      (packets Flit.len g.taken).flatMap (dataWords c dat) := by
  have hmany : ∀ (ps : List (List Flit)) (xs : List Flit),
      (∀ p ∈ ps, IsPacket Flit.len p 0 ∧ ∀ f ∈ p.head?, wf f) →
      packets (c.dataFlits · - 1) (ps.flatMap dat ++ xs) =
        ps.flatMap (dataWords c dat) ++ packets (c.dataFlits · - 1) xs := by
    intro ps xs hps
    induction ps with
    | nil => rfl
    | cons p ps ih =>
      have hp := hps p List.mem_cons_self
      rw [List.flatMap_cons, List.append_assoc, (cut_append (hs.data hp.1 hp.2)).1,
        ih fun q hq => hps q (List.mem_cons_of_mem p hq), List.flatMap_cons, List.append_assoc]
      rfl
  rw [hp.dataIn]
  obtain hnil | ⟨ps, pk, hps, hwhole, -, -⟩ := hp.messages
  · rw [hnil]
    rfl
  · rw [hps, List.flatMap_append, List.flatMap_singleton, hmany ps _ hwhole, List.flatMap_append,
      List.flatMap_singleton]
    rfl

theorem isWhole_replay (hs : Shape c wf heads dat) (hr : replay = [] ∨
    ∃ n, n ≠ 0 ∧ IsPacket (c.headerFlits · - 1) replay n) :
    Fifo.isWhole c.headerFlits replay = false := by
  obtain rfl | ⟨n, hn, hpk⟩ := hr
  · rfl
  · rw [Fifo.isWhole_of_isPacket hs.headerPos hpk, decide_eq_false hn]

/-- What leaves the header queue is the headers of the messages in order. -/
theorem headers_eq {ms : List (List Flit)} {left : List (List Flit)} {r : List Flit}
    (hr : Fifo.isWhole c.headerFlits r = false)
    (hleft : left = (ms.map heads ++ if r = [] then [] else [r]).take left.length)
    (hwhole : ∀ x ∈ left, Fifo.isWhole c.headerFlits x = true) :
    left.map some = (ms.map (wholeHeader c heads)).take left.length ∧
      ((ms.map heads ++ if r = [] then [] else [r])[left.length]?).filter
        (Fifo.isWhole c.headerFlits) = (ms[left.length]?).bind (wholeHeader c heads) := by
  have hle : left.length ≤ ms.length := by
    by_contra hgt
    have hmem : r ∈ left := by
      by_cases hnil : r = []
      · have hlen := congrArg List.length hleft
        rw [if_pos hnil, List.append_nil, List.length_take, List.length_map] at hlen
        omega
      · rw [hleft, if_neg hnil, List.take_of_length_le]
        · exact List.mem_append_right _ (List.mem_singleton_self r)
        · rw [List.length_append, List.length_map, List.length_singleton]
          omega
    rw [hwhole r hmem] at hr
    cases hr
  have htake : left = (ms.take left.length).map heads := by
    rw [List.take_append_of_le_length (by rw [List.length_map]; exact hle), ← List.map_take] at hleft
    exact hleft
  constructor
  · have hall : ∀ p ∈ ms.take left.length, wholeHeader c heads p = some (heads p) := by
      intro p hp
      have hmem : heads p ∈ left := by
        rw [htake]
        exact List.mem_map_of_mem hp
      rw [wholeHeader, Option.filter_some, hwhole _ hmem, if_pos rfl]
    rw [← List.map_take, List.map_congr_left hall]
    nth_rewrite 1 [htake]
    rw [List.map_map]
    rfl
  · rcases Nat.lt_or_eq_of_le hle with hlt | heq
    · rw [List.getElem?_append_left (by rw [List.length_map]; exact hlt), List.getElem?_map,
        List.getElem?_eq_getElem hlt]
      rfl
    · rw [List.getElem?_append_right (by rw [List.length_map]; omega), List.length_map, heq,
        Nat.sub_self, List.getElem?_eq_none (Nat.le_refl ms.length)]
      by_cases hnil : r = []
      · rw [if_pos hnil]
        rfl
      · rw [if_neg hnil, List.getElem?_cons_zero, Option.filter_some, hr,
          if_neg Bool.false_ne_true]
        rfl

/-- Queues that are filled from the messages lose nothing. -/
theorem Parsed.lossless (hp : Parsed c wf heads dat g replay) (hs : Shape c wf heads dat)
    (hq : BufIn.Queues c s g) : Lossless c heads dat s g := by
  obtain ⟨⟨q, hheader⟩, q', hdata⟩ := hq
  have hgroups := hp.packets_headerIn hs
  have hwords := hp.packets_dataIn hs
  have hr := isWhole_replay hs (hp.replay.imp_right And.right)
  have hleft := hheader.left_eq
  rw [hgroups] at hleft
  obtain ⟨hheaders, hnext⟩ := headers_eq hr hleft fun x hx => by
    rw [Fifo.isWhole_of_isPacket hs.headerPos (hheader.whole x hx)]
    rfl
  refine ⟨hheaders, ?_, ?_, ?_, ?_, ⟨q, hheader.holds, hheader.stream⟩,
    ⟨q', hdata.holds, hdata.stream⟩⟩
  · rw [BufIn.header, hheader.offer_eq hs.headerPos, hgroups, hnext]
  · rw [← hwords]
    exact hdata.left_eq
  · rw [BufIn.data, hdata.offer_eq hs.dataPos, hwords]
  · intro pk hmem hpk
    have hwf := hp.wf pk hmem
    obtain ⟨m, hm, hzero⟩ := hs.header hpk hwf
    refine ⟨?_, flatten_packets _ _, ?_⟩
    · rw [wholeHeader, Option.filter_some, Fifo.isWhole_of_isPacket hs.headerPos hm, hzero rfl]
      rfl
    · intro w hw
      obtain ⟨hnil, -⟩ | ⟨ps, last, hps, hwhole, hlast⟩ :=
        packets_spec (c.dataFlits · - 1) (dat pk)
      · rw [dataWords, hnil] at hw
        cases hw
      · rw [hs.data hpk hwf] at hlast
        rw [dataWords, hps] at hw
        have hw0 : IsPacket (c.dataFlits · - 1) w 0 := by
          rcases List.mem_append.1 hw with hw | hw
          · exact hwhole w hw
          · rw [List.mem_singleton.1 hw]
            exact hlast
        rw [Fifo.isWhole_of_isPacket hs.dataPos hw0]
        rfl

/-! ### One more flit -/

/-- A flit that is taken, with what goes into the queues in the same cycle. -/
theorem Parsed.take (hp : Parsed c wf heads dat g replay) {g' : BufInHistory} {x : Flit}
    {hs ds : List Flit} (ht : g'.taken = g.taken ++ [x]) (hh : g'.headerIn = g.headerIn ++ hs)
    (hd : g'.dataIn = g.dataIn ++ ds)
    (hfirst : due Flit.len g.taken = 0 → wf x ∧ heads [x] = replay ++ hs ∧ dat [x] = ds)
    (hnext : due Flit.len g.taken ≠ 0 →
      heads (inHand Flit.len g.taken ++ [x]) = heads (inHand Flit.len g.taken) ++ (replay ++ hs) ∧
        dat (inHand Flit.len g.taken ++ [x]) = dat (inHand Flit.len g.taken) ++ ds) :
    Parsed c wf heads dat g' [] where
  wf := by
    intro pk hmem f hf
    rw [ht, packets_snoc] at hmem
    by_cases hdue : due Flit.len g.taken = 0
    · rw [grow, if_pos hdue] at hmem
      rcases List.mem_append.1 hmem with hmem | hmem
      · exact hp.wf pk hmem f hf
      · rw [List.mem_singleton.1 hmem, List.head?_cons, Option.mem_some_iff] at hf
        exact hf ▸ (hfirst hdue).1
    · obtain ⟨ps, hps⟩ := exists_inHand hdue
      obtain ⟨a, t, hcons⟩ := exists_cons_inHand hdue
      have hlast : inHand Flit.len g.taken ∈ packets Flit.len g.taken := by
        rw [hps]
        exact List.mem_append_right _ (List.mem_singleton_self _)
      rw [hps, grow_snoc hdue] at hmem
      rcases List.mem_append.1 hmem with hmem | hmem
      · exact hp.wf pk (by rw [hps]; exact List.mem_append_left _ hmem) f hf
      · refine hp.wf _ hlast f ?_
        rw [List.mem_singleton.1 hmem, hcons] at hf
        rw [hcons]
        exact hf
  headerIn := by
    rw [hh, hp.headerIn, ht, flatMap_packets_snoc (fun hdue => (hfirst hdue).2.1)
      (fun hdue => (hnext hdue).1), List.append_nil, List.append_assoc]
  dataIn := by
    rw [hd, hp.dataIn, ht, flatMap_packets_snoc (fun hdue => (hfirst hdue).2.2)
      (fun hdue => (hnext hdue).2)]
  replay := .inl rfl

/-- A header flit that goes into the queue while it is stalled. -/
theorem Parsed.replayed (hp : Parsed c wf heads dat g replay) {g' : BufInHistory} {x : Flit} {n : Nat}
    (ht : g'.taken = g.taken) (hh : g'.headerIn = g.headerIn ++ [x]) (hd : g'.dataIn = g.dataIn)
    (hdue : due Flit.len g.taken = 0) (hn : n ≠ 0)
    (hpk : IsPacket (c.headerFlits · - 1) (replay ++ [x]) n) :
    Parsed c wf heads dat g' (replay ++ [x]) where
  wf := ht ▸ hp.wf
  headerIn := by rw [ht, hh, hp.headerIn, List.append_assoc]
  dataIn := by rw [ht, hd, hp.dataIn]
  replay := .inr ⟨ht ▸ hdue, n, hn, hpk⟩

/-- A cycle that takes no flit and fills no queue. -/
theorem Parsed.keep (hp : Parsed c wf heads dat g replay) {g' : BufInHistory}
    (ht : g'.taken = g.taken) (hh : g'.headerIn = g.headerIn) (hd : g'.dataIn = g.dataIn) :
    Parsed c wf heads dat g' replay where
  wf := ht ▸ hp.wf
  headerIn := by rw [ht, hh, hp.headerIn]
  dataIn := by rw [ht, hd, hp.dataIn]
  replay := ht ▸ hp.replay

end

end Piton.L2
