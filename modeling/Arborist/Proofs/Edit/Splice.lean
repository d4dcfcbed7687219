import Arborist.Proofs.Edit.Order
import Arborist.Proofs.Text.Utf8
import Arborist.Revision.Draft

/-!
# Rendering is a forward splice

`render` applies edits from the end of the source backwards, on a buffer that changes its length
with every edit. `splice` reads the source once from left to right instead: what lies before an
edit, the text of the edit, and so on from where the edit ends. This module shows that the two
agree on every queue that passes the check, and that the result is valid UTF-8:

* `check_eq_ok_iff` — what the check promises, as `Fits` for each edit and `Apart` for the sorted
  queue;
* `applyAll_eq_splice` — backwards and forwards give the same bytes;
* `validUtf8_spliceFrom` — the pieces are cut between characters, so they join to valid UTF-8;
* `untouchedFrom_cons`, `textsOf_infix_splice` — what becomes of the bytes outside all edits and of
  several edits that start at one offset; and
* `Draft.render_eq_splice` — all of this for the drafts of a session.

The induction is always on the edits still to come, with the offset up to which the source has
been used; `Apart` keeps that offset at or before every edit to come.
-/

namespace Arborist

open Text

namespace Edit

/-! ## Queues that pass the check -/

/-- An edit in bounds whose ends split no character. -/
structure Fits (source : Bytes) (e : Edit) : Prop where
  start_nonneg : 0 ≤ e.start
  start_le_stop : e.start ≤ e.stop
  stop_le : e.stop ≤ source.length
  start_between : insideCharacter source e.start = false
  stop_between : insideCharacter source e.stop = false

theorem flaw?_eq_none_iff {source : Bytes} {e : Edit} :
    flaw? source e = none ↔ Fits source e := by
  unfold flaw?
  constructor
  · intro h
    split at h
    · cases h
    next hbounds =>
    simp only [Bool.or_eq_true, decide_eq_true_eq, not_or] at hbounds
    split at h
    · cases h
    next hstart =>
    split at h
    · cases h
    next hstop =>
    exact ⟨by omega, by omega, by omega, by simpa using hstart, by simpa using hstop⟩
  · rintro ⟨hnonneg, hle, hstop, hcutStart, hcutStop⟩
    rw [if_neg, if_neg, if_neg]
    · simpa using hcutStop
    · simpa using hcutStart
    · simp only [Bool.or_eq_true, decide_eq_true_eq]
      omega

/-- No edit of a queue has a flaw exactly if all of them fit. -/
theorem findSome?_flaw?_eq_none_iff {source : Bytes} {edits : List Edit} :
    edits.findSome? (flaw? source) = none ↔ ∀ e ∈ edits, Fits source e := by
  rw [List.findSome?_eq_none_iff]
  exact forall₂_congr fun e _ => flaw?_eq_none_iff

/-- A queue passes the check exactly if every edit fits and the sorted edits are apart. -/
theorem check_eq_ok_iff {source : Bytes} {edits : List Edit} :
    check source edits = .ok () ↔ (∀ e ∈ edits, Fits source e) ∧ Apart (sorted edits) := by
  unfold check
  split
  · next conflict hflaw =>
    refine iff_of_false (by simp) fun h => ?_
    rw [findSome?_flaw?_eq_none_iff.mpr h.1] at hflaw
    cases hflaw
  · next hflaw =>
    have hfits := findSome?_flaw?_eq_none_iff.mp hflaw
    have hle : ∀ e ∈ sorted edits, e.start ≤ e.stop :=
      fun e he => (hfits e (mem_sorted.mp he)).start_le_stop
    rw [← firstOverlap_eq_none_iff hle]
    split
    · next hover => simp [hover]
    · next hover => exact iff_of_true rfl ⟨hfits, hover⟩

/-! ## The forward splice -/

/-- The source from an offset on, with edits made in the order of the list. -/
def spliceFrom (source : Bytes) (offset : Nat) : List Edit → Bytes
  | [] => source.drop offset
  | e :: rest =>
    slice source offset e.start.toNat ++ encode e.text ++ spliceFrom source e.stop.toNat rest

/-- The source with edits made in the order of the list, in one pass from its start to its end. -/
def splice (source : Bytes) (edits : List Edit) : Bytes := spliceFrom source 0 edits

theorem take_append_slice (source : Bytes) {start stop : Nat} (h : start ≤ stop) :
    source.take start ++ slice source start stop = source.take stop := by
  have htake : source.take start = (source.take stop).take start := by
    rw [List.take_take, Nat.min_eq_left h]
  rw [htake, slice, List.take_append_drop]

theorem length_slice {source : Bytes} {start stop : Nat} (h : stop ≤ source.length) :
    (slice source start stop).length = stop - start := by
  rw [slice, List.length_drop, List.length_take, Nat.min_eq_left h]

theorem slice_self (source : Bytes) (offset : Nat) : slice source offset offset = [] := by
  rw [slice, List.drop_eq_nil_iff, List.length_take]
  omega

/-- What a list of edits is known to be while it is spliced in from an offset on. -/
structure Ahead (source : Bytes) (offset : Nat) (edits : List Edit) : Prop where
  fits : ∀ e ∈ edits, Fits source e
  apart : Apart edits
  /-- No edit reaches back to what has been used. -/
  offset_le : ∀ e ∈ edits, (offset : Int) ≤ e.start

namespace Ahead

variable {source : Bytes} {offset : Nat} {e : Edit} {edits : List Edit}

/-- A checked queue is ahead of the start of the source. -/
theorem of_check (h : check source edits = .ok ()) : Ahead source 0 (sorted edits) := by
  obtain ⟨hfits, hapart⟩ := check_eq_ok_iff.mp h
  exact ⟨fun e he => hfits e (mem_sorted.mp he), hapart,
    fun e he => (hfits e (mem_sorted.mp he)).start_nonneg⟩

theorem head (h : Ahead source offset (e :: edits)) : Fits source e := h.fits e List.mem_cons_self

theorem offset_le_start (h : Ahead source offset (e :: edits)) : offset ≤ e.start.toNat := by
  have := h.offset_le e List.mem_cons_self
  omega

/-- After an edit has been made, the source is used up to its end. -/
theorem tail (h : Ahead source offset (e :: edits)) : Ahead source e.stop.toNat edits := by
  obtain ⟨hapart, hrest⟩ := List.pairwise_cons.mp h.apart
  refine ⟨fun f hf => h.fits f (List.mem_cons_of_mem _ hf), hrest, fun f hf => ?_⟩
  have := hapart f hf
  have := h.head.start_nonneg
  have := h.head.start_le_stop
  omega

/-- The offset may be taken further, up to the first edit. -/
theorem advance {further : Nat} (h : Ahead source offset edits)
    (hle : ∀ f ∈ edits, (further : Int) ≤ f.start) : Ahead source further edits :=
  ⟨h.fits, h.apart, hle⟩

end Ahead

/-- Applying edits backwards leaves the source as it was up to the first of them, and from there
on gives the splice. -/
theorem foldr_apply_eq {source : Bytes} {offset : Nat} {edits : List Edit}
    (hahead : Ahead source offset edits) :
    edits.foldr (fun e result => apply result e) source
      = source.take offset ++ spliceFrom source offset edits := by
  induction edits generalizing offset with
  | nil => simp [spliceFrom]
  | cons e rest ih =>
      have hfits := hahead.head
      have hnonneg := hfits.start_nonneg
      have hle := hfits.start_le_stop
      have hstop := hfits.stop_le
      have hlength : (source.take e.stop.toNat).length = e.stop.toNat := by
        rw [List.length_take]
        omega
      -- The later edits have left everything before `e.stop` as it was.
      have hbefore : (source.take e.stop.toNat ++ spliceFrom source e.stop.toNat rest).take
          e.start.toNat = source.take e.start.toNat := by
        rw [List.take_append_of_le_length (by omega), List.take_take, Nat.min_eq_left (by omega)]
      have hafter : (source.take e.stop.toNat ++ spliceFrom source e.stop.toNat rest).drop
          e.stop.toNat = spliceFrom source e.stop.toNat rest := List.drop_left' hlength
      rw [List.foldr_cons, ih hahead.tail, apply, hbefore, hafter, spliceFrom,
        ← take_append_slice source hahead.offset_le_start]
      simp only [List.append_assoc]

/-- Applying a checked queue backwards is the forward splice of its sorted edits. -/
theorem applyAll_eq_splice {source : Bytes} {edits : List Edit}
    (h : check source edits = .ok ()) : applyAll source edits = splice source (sorted edits) := by
  rw [applyAll, foldr_apply_eq (Ahead.of_check h), splice, List.take_zero, List.nil_append]

/-! ## The result is valid UTF-8 -/

/-- Splicing texts between the characters of valid bytes gives valid bytes. -/
theorem validUtf8_spliceFrom {source : Bytes} {offset : Nat} {edits : List Edit}
    (hvalid : ValidUtf8 source) (hle : offset ≤ source.length)
    (hcut : insideCharacter source offset = false) (hahead : Ahead source offset edits) :
    ValidUtf8 (spliceFrom source offset edits) := by
  induction edits generalizing offset with
  | nil => exact hvalid.drop hle hcut
  | cons e rest ih =>
      obtain ⟨hnonneg, hstartStop, hstop, hcutStart, hcutStop⟩ := hahead.head
      have hstartNat : ((e.start.toNat : Nat) : Int) = e.start := Int.toNat_of_nonneg hnonneg
      have hstopNat : ((e.stop.toNat : Nat) : Int) = e.stop := Int.toNat_of_nonneg (by omega)
      have hslice : ValidUtf8 (slice source offset e.start.toNat) :=
        hvalid.slice hahead.offset_le_start (by omega) hcut (by rw [hstartNat]; exact hcutStart)
      have hrest : ValidUtf8 (spliceFrom source e.stop.toNat rest) :=
        ih (by omega) (by rw [hstopNat]; exact hcutStop) hahead.tail
      exact (hslice.append (ValidUtf8.encode e.text)).append hrest

/-- Nothing is split at the start of valid bytes. -/
theorem insideCharacter_zero {source : Bytes} (hvalid : ValidUtf8 source) :
    insideCharacter source 0 = false := by
  obtain ⟨cs, rfl⟩ := ValidUtf8.iff_bytesOf.mp hvalid
  exact not_continuation_of_boundary [] cs

/-- A checked queue renders to a text whose bytes are the splice. -/
theorem render_of_check {source : Bytes} {edits : List Edit} (hvalid : ValidUtf8 source)
    (hcheck : check source edits = .ok ()) :
    ∃ result, render source edits = .ok result ∧
      encode result = splice source (sorted edits) := by
  have hsplice : ValidUtf8 (splice source (sorted edits)) :=
    validUtf8_spliceFrom hvalid (Nat.zero_le _) (insideCharacter_zero hvalid)
      (Ahead.of_check hcheck)
  obtain ⟨result, hresult⟩ := hsplice
  refine ⟨result, ?_, (decode?_eq_some_iff.mp hresult).symm⟩
  unfold render
  rw [hcheck, applyAll_eq_splice hcheck, hresult]
  rfl

/-! ## What becomes of the source and of the texts -/

/-- Whether the byte at an offset is replaced by an edit. -/
def covers (e : Edit) (offset : Nat) : Bool := e.start ≤ offset && offset < e.stop

/-- Whether no edit replaces a byte, which is given with its offset. -/
def isUntouched (edits : List Edit) (byte : UInt8 × Nat) : Bool :=
  !edits.any fun e => e.covers byte.2

/-- The bytes of a source from an offset on that no edit replaces. -/
def untouchedFrom (source : Bytes) (offset : Nat) (edits : List Edit) : Bytes :=
  (((source.drop offset).zipIdx offset).filter (isUntouched edits)).map Prod.fst

/-- The bytes of a source that no edit replaces. -/
def untouched (source : Bytes) (edits : List Edit) : Bytes := untouchedFrom source 0 edits

/-- The untouched bytes do not depend on the order of the edits. -/
theorem untouched_sorted (source : Bytes) (edits : List Edit) :
    untouched source (sorted edits) = untouched source edits := by
  unfold untouched untouchedFrom
  congr 2
  funext byte
  rw [isUntouched, isUntouched, Bool.not_inj_iff, Bool.eq_iff_iff, List.any_eq_true,
    List.any_eq_true]
  simp only [mem_sorted]

/-- The source from an offset on, cut at the two ends of an edit. -/
theorem drop_eq_slices (source : Bytes) {offset start stop : Nat} (hstart : offset ≤ start)
    (hle : start ≤ stop) :
    source.drop offset = slice source offset start ++ slice source start stop
      ++ source.drop stop := by
  have hslices : slice source offset start ++ slice source start stop
      = slice source offset stop := by
    have hsplit := take_append_slice (source.drop offset) (Nat.sub_le_sub_right hle offset)
    simpa only [slice, List.take_drop, List.drop_drop, Nat.add_sub_cancel' hstart,
      Nat.add_sub_cancel' (Nat.le_trans hstart hle)] using hsplit
  have hwhole := List.take_append_drop (stop - offset) (source.drop offset)
  rw [hslices, slice]
  simpa only [List.take_drop, List.drop_drop, Nat.add_sub_cancel' (Nat.le_trans hstart hle)]
    using hwhole.symm

/-- A slice, cut at two offsets in it. -/
theorem slice_eq_slices (source : Bytes) {offset start stop last : Nat} (hstart : offset ≤ start)
    (hle : start ≤ stop) (hlast : stop ≤ last) :
    slice source offset last =
      slice source offset start ++ slice source start stop ++ slice source stop last := by
  have hwhole := drop_eq_slices (source.take last) hstart hle
  simp only [slice, List.take_take] at hwhole ⊢
  rwa [Nat.min_eq_left (Nat.le_trans hle hlast), Nat.min_eq_left hlast] at hwhole

/-- Bytes between two offsets that no edit comes between stay together in the splice. Before and
behind them stands what the edits before and behind make of the rest. -/
theorem exists_spliceFrom_eq_around {source : Bytes} {offset start stop : Nat} {edits : List Edit}
    (hahead : Ahead source offset edits) (hoffset : offset ≤ start) (hle : start ≤ stop)
    (hfree : ∀ e ∈ edits, e.stop ≤ start ∨ stop ≤ e.start) :
    ∃ before behind, edits = before ++ behind ∧
      spliceFrom source offset edits =
        spliceFrom (source.take start) offset before ++ slice source start stop ++
          spliceFrom source stop behind := by
  induction edits generalizing offset with
  | nil => exact ⟨[], [], rfl, drop_eq_slices source hoffset hle⟩
  | cons e rest ih =>
      obtain ⟨he, hrest⟩ := List.forall_mem_cons.mp hfree
      rcases he with hbefore | hbehind
      · obtain ⟨before, behind, rfl, hsplit⟩ := ih hahead.tail (by omega) hrest
        have hself := hahead.head.start_le_stop
        have hsame : slice (source.take start) offset e.start.toNat =
            slice source offset e.start.toNat := by
          rw [slice, List.take_take, Nat.min_eq_left (by omega), slice]
        refine ⟨e :: before, behind, rfl, ?_⟩
        rw [spliceFrom, hsplit, spliceFrom, hsame]
        simp only [List.append_assoc]
      · -- The bytes are part of what is taken over before the edit.
        refine ⟨[], e :: rest, rfl, ?_⟩
        change slice source offset e.start.toNat ++ encode e.text ++ _ =
          slice source offset start ++ slice source start stop ++
            (slice source stop e.start.toNat ++ encode e.text ++ _)
        rw [slice_eq_slices source hoffset hle (by omega)]
        simp only [List.append_assoc]

/-- Bytes between two offsets appear as they are in the splice if no edit comes between. -/
theorem slice_infix_spliceFrom {source : Bytes} {offset start stop : Nat} {edits : List Edit}
    (hahead : Ahead source offset edits) (hoffset : offset ≤ start) (hle : start ≤ stop)
    (hfree : ∀ e ∈ edits, e.stop ≤ start ∨ stop ≤ e.start) :
    slice source start stop <:+: spliceFrom source offset edits := by
  obtain ⟨before, behind, -, hsplit⟩ := exists_spliceFrom_eq_around hahead hoffset hle hfree
  rw [hsplit]
  exact ⟨_, _, rfl⟩

theorem untouchedFrom_nil (source : Bytes) (offset : Nat) :
    untouchedFrom source offset [] = source.drop offset := by
  have hall : ((source.drop offset).zipIdx offset).filter (isUntouched []) =
      (source.drop offset).zipIdx offset := List.filter_eq_self.mpr fun _ _ => rfl
  rw [untouchedFrom, hall, List.zipIdx_map_fst]

/-- Untouched are the bytes before the first edit, and what the later edits leave untouched behind
it. -/
theorem untouchedFrom_cons {source : Bytes} {offset : Nat} {e : Edit} {edits : List Edit}
    (hahead : Ahead source offset (e :: edits)) :
    untouchedFrom source offset (e :: edits) =
      slice source offset e.start.toNat ++ untouchedFrom source e.stop.toNat edits := by
  obtain ⟨hnonneg, hle, hstop, -, -⟩ := hahead.head
  have hoffset := hahead.offset_le_start
  have hend : offset + (e.start.toNat - offset) + (e.stop.toNat - e.start.toNat)
      = e.stop.toNat := by omega
  have hbefore : ((slice source offset e.start.toNat).zipIdx offset).filter
      (isUntouched (e :: edits)) = (slice source offset e.start.toNat).zipIdx offset := by
    rw [List.filter_eq_self]
    intro byte hbyte
    have hbounds := List.mem_zipIdx hbyte
    rw [length_slice (by omega)] at hbounds
    have hlater : ∀ f ∈ e :: edits, f.covers byte.2 = false := by
      intro f hf
      have hstart : e.start ≤ f.start := by
        rcases List.mem_cons.mp hf with rfl | hf
        · exact Int.le_refl _
        · have := (List.pairwise_cons.mp hahead.apart).1 f hf
          omega
      simp only [covers, Bool.and_eq_false_iff, decide_eq_false_iff_not]
      omega
    simpa [isUntouched] using hlater
  have hcovered : ((slice source e.start.toNat e.stop.toNat).zipIdx e.start.toNat).filter
      (isUntouched (e :: edits)) = [] := by
    rw [List.filter_eq_nil_iff]
    intro byte hbyte
    have hbounds := List.mem_zipIdx hbyte
    rw [length_slice (by omega)] at hbounds
    have hcovers : e.covers byte.2 = true := by
      simp only [covers, Bool.and_eq_true, decide_eq_true_eq]
      omega
    simp [isUntouched, hcovers]
  have hbehind : ((source.drop e.stop.toNat).zipIdx e.stop.toNat).filter
      (isUntouched (e :: edits)) =
        ((source.drop e.stop.toNat).zipIdx e.stop.toNat).filter (isUntouched edits) := by
    refine List.filter_congr fun byte hbyte => ?_
    have hbounds := List.mem_zipIdx hbyte
    have hcovers : e.covers byte.2 = false := by
      simp only [covers, Bool.and_eq_false_iff, decide_eq_false_iff_not]
      omega
    simp [isUntouched, hcovers]
  rw [untouchedFrom, drop_eq_slices source hoffset (Int.toNat_le_toNat hle),
    List.zipIdx_append, List.zipIdx_append, List.filter_append, List.filter_append,
    length_slice (by omega), List.length_append, length_slice (by omega),
    length_slice (by omega), Nat.add_sub_cancel' hoffset, hbefore, hcovered, List.append_nil,
    List.map_append, ← Nat.add_assoc, hend, hbehind, List.zipIdx_map_fst, untouchedFrom]

/-- The untouched bytes appear in the splice, in their order. -/
theorem untouched_sublist_spliceFrom {source : Bytes} {offset : Nat} {edits : List Edit}
    (hahead : Ahead source offset edits) :
    (untouchedFrom source offset edits).Sublist (spliceFrom source offset edits) := by
  induction edits generalizing offset with
  | nil =>
      rw [untouchedFrom_nil]
      exact List.Sublist.refl _
  | cons e rest ih =>
      rw [untouchedFrom_cons hahead, spliceFrom]
      exact (List.sublist_append_left _ _).append (ih hahead.tail)

/-- If edits only delete, the splice is what they leave untouched. -/
theorem spliceFrom_eq_untouchedFrom {source : Bytes} {offset : Nat} {edits : List Edit}
    (hahead : Ahead source offset edits) (hempty : ∀ e ∈ edits, e.text = "") :
    spliceFrom source offset edits = untouchedFrom source offset edits := by
  induction edits generalizing offset with
  | nil => rw [untouchedFrom_nil, spliceFrom]
  | cons e rest ih =>
      obtain ⟨he, hrest⟩ := List.forall_mem_cons.mp hempty
      have hnothing : encode "" = [] := rfl
      rw [untouchedFrom_cons hahead, spliceFrom, ih hahead.tail hrest, he, hnothing,
        List.append_nil]

/-! ## Edits that start at one offset -/

/-- Whether an edit starts at an offset. -/
def startsAt (offset : Int) (e : Edit) : Bool := e.start == offset

/-- Whether an edit replaces bytes from an offset on. -/
def replacesFrom (offset : Int) (e : Edit) : Bool := e.start == offset && offset < e.stop

theorem replacesFrom_iff {offset : Int} {e : Edit} :
    e.replacesFrom offset = true ↔ e.start = offset ∧ offset < e.stop := by
  simp [replacesFrom]

/-- The texts of edits, one after another. -/
def textsOf (edits : List Edit) : Bytes := edits.flatMap fun e => encode e.text

/-- If some edits to come start where the splice has arrived, their texts are next. -/
theorem textsOf_prefix_spliceFrom {source : Bytes} {offset : Nat} {edits : List Edit}
    (hahead : Ahead source offset edits) :
    textsOf (edits.filter (startsAt offset)) <+: spliceFrom source offset edits := by
  induction edits with
  | nil => exact List.nil_prefix
  | cons e rest ih =>
      have hlater : (offset : Int) < e.stop →
          rest.filter (startsAt offset) = [] := by
        intro hlt
        rw [List.filter_eq_nil_iff]
        intro f hf heq
        have := (List.pairwise_cons.mp hahead.apart).1 f hf
        have := eq_of_beq heq
        omega
      have hle := hahead.head.start_le_stop
      by_cases hstart : e.start = offset
      · rw [List.filter_cons_of_pos (by simp [startsAt, hstart]), textsOf, List.flatMap_cons,
          spliceFrom, hstart, Int.toNat_natCast, slice_self, List.nil_append]
        apply (List.prefix_append_right_inj _).mpr
        by_cases hstop : e.stop = offset
        · -- An insertion: the splice is still at the same offset.
          rw [hstop, Int.toNat_natCast]
          have htail := hahead.tail
          rw [hstop, Int.toNat_natCast] at htail
          exact ih htail
        · rw [hlater (by omega)]
          exact List.nil_prefix
      · have := hahead.offset_le e List.mem_cons_self
        rw [List.filter_cons_of_neg (by simp [startsAt, hstart]), hlater (by omega)]
        exact List.nil_prefix

/-- The texts of the edits that start at one offset follow one another in the splice. -/
theorem textsOf_infix_spliceFrom {source : Bytes} {offset : Nat} {edits : List Edit}
    (hahead : Ahead source offset edits) (start : Int) :
    textsOf (edits.filter (startsAt start)) <:+: spliceFrom source offset edits := by
  induction edits generalizing offset with
  | nil => exact List.nil_infix
  | cons e rest ih =>
      by_cases hstart : e.start = start
      · -- Take the splice up to `start` first.
        have hnonneg := hahead.head.start_nonneg
        have hfrom : ∀ f ∈ e :: rest, ((e.start.toNat : Nat) : Int) ≤ f.start := by
          intro f hf
          rcases List.mem_cons.mp hf with rfl | hf
          · omega
          · have := (List.pairwise_cons.mp hahead.apart).1 f hf
            have := hahead.head.start_le_stop
            omega
        have hprefix := textsOf_prefix_spliceFrom (hahead.advance hfrom)
        rw [Int.toNat_of_nonneg hnonneg, hstart] at hprefix
        have hsplit : spliceFrom source offset (e :: rest)
            = slice source offset e.start.toNat ++ spliceFrom source e.start.toNat (e :: rest) := by
          rw [spliceFrom, spliceFrom, slice_self, List.nil_append, List.append_assoc]
        rw [hsplit, hstart]
        exact hprefix.isInfix.trans (List.suffix_append _ _).isInfix
      · rw [List.filter_cons_of_neg (by simp [startsAt, hstart]), spliceFrom]
        exact (ih hahead.tail).trans (List.suffix_append _ _).isInfix

/-- Of the sorted edits that start at one offset the insertions come first. -/
theorem filter_startsAt_eq_append {edits : List Edit} (hle : ∀ e ∈ edits, e.start ≤ e.stop)
    (hsorted : edits.Pairwise fun e f => e.notAfter f = true) (offset : Int) :
    edits.filter (startsAt offset)
      = edits.filter (hasRange offset offset) ++ edits.filter (replacesFrom offset) := by
  induction edits with
  | nil => rfl
  | cons e rest ih =>
      obtain ⟨hhead, hrest⟩ := List.pairwise_cons.mp hsorted
      have ih := ih (fun f hf => hle f (List.mem_cons_of_mem _ hf)) hrest
      have hself := hle e List.mem_cons_self
      by_cases hstart : e.start = offset
      · by_cases hstop : e.stop = offset
        · rw [List.filter_cons_of_pos (by simp [startsAt, hstart]),
            List.filter_cons_of_pos (by simp [hasRange, hstart, hstop]),
            List.filter_cons_of_neg (by simp [replacesFrom, hstop]), ih, List.cons_append]
        · -- No insertion at the same offset can follow a replacement.
          have hnone : rest.filter (hasRange offset offset) = [] := by
            rw [List.filter_eq_nil_iff]
            intro f hf hrange
            have := hasRange_iff.mp hrange
            have := notAfter_iff.mp (hhead f hf)
            omega
          rw [List.filter_cons_of_pos (by simp [startsAt, hstart]),
            List.filter_cons_of_neg (by simp [hasRange, hstop]),
            List.filter_cons_of_pos (by rw [replacesFrom_iff]; omega), ih, hnone,
            List.nil_append, List.nil_append]
      · rw [List.filter_cons_of_neg (by simp [startsAt, hstart]),
          List.filter_cons_of_neg (by simp [hasRange, hstart]),
          List.filter_cons_of_neg (by simp [replacesFrom, hstart]), ih]

/-- If the sorted edits are apart, the queue has at most one replacement from an offset on. -/
theorem filter_replacesFrom_sorted {edits : List Edit} (hapart : Apart (sorted edits))
    (offset : Int) :
    (sorted edits).filter (replacesFrom offset) = edits.filter (replacesFrom offset) := by
  refine eq_of_perm_of_pairwise_false ((sorted_perm edits).filter _) ?_
  rw [List.pairwise_filter]
  refine hapart.imp fun hle hp hq => ?_
  have := replacesFrom_iff.mp hp
  have := replacesFrom_iff.mp hq
  omega

/-- Insertions at one offset come out in the order of the queue, followed by the replacement that
starts there, with nothing in between. -/
theorem textsOf_infix_splice {source : Bytes} {edits : List Edit}
    (hcheck : check source edits = .ok ()) (offset : Int) :
    textsOf (edits.filter (hasRange offset offset) ++ edits.filter (replacesFrom offset))
      <:+: splice source (sorted edits) := by
  have hahead := Ahead.of_check hcheck
  have hle : ∀ e ∈ sorted edits, e.start ≤ e.stop := fun e he => (hahead.fits e he).start_le_stop
  rw [← filter_sorted edits offset offset, ← filter_replacesFrom_sorted hahead.apart,
    ← filter_startsAt_eq_append hle (sorted_pairwise edits)]
  exact textsOf_infix_spliceFrom hahead offset

end Edit

/-! ## Drafts -/

namespace Draft

/-- What rendering a draft answers depends on its source and its queue alone. -/
theorem render_fst (draft : Draft) (journal : Journal) :
    (draft.render.run journal).1 = Edit.render draft.source draft.edits := by
  unfold render
  cases Edit.render draft.source draft.edits <;> rfl

/-- What is queued first is all that is rendered. -/
theorem render_queue {draft : Draft} (hnew : draft.edits = []) (edits : List Edit)
    (journal : Journal) :
    ((draft.queue edits).render.run journal).1 = Edit.render draft.source edits := by
  rw [render_fst, queue, hnew, List.nil_append]

/-- **Rendering is a forward splice.** A draft over a valid source whose queue passes the check
renders to a text, and the bytes of that text are the splice of the source with the queued edits
listed by start, end and place in the queue. So the bytes that no edit replaces are all kept in
their order, and of the edits that start at one offset the insertions come first, in the order of
the queue, directly followed by the replacement. -/
theorem render_eq_splice (draft : Draft) (journal : Journal)
    (hvalid : ∃ text, decode? draft.source = some text)
    (hcheck : Edit.check draft.source draft.edits = .ok ()) :
    ∃ result listed,
      (draft.render.run journal).1 = .ok result ∧
      (∀ other, Edit.Listing draft.edits other ↔ other = listed) ∧
      encode result = Edit.splice draft.source (listed.map Prod.fst) ∧
      (Edit.untouched draft.source draft.edits).Sublist (encode result) ∧
      ∀ offset, Edit.textsOf (draft.edits.filter (Edit.hasRange offset offset)
        ++ draft.edits.filter (Edit.replacesFrom offset)) <:+: encode result := by
  obtain ⟨result, hrender, hbytes⟩ := Edit.render_of_check hvalid hcheck
  have hlisting := Edit.listing_mergeSort draft.edits
  refine ⟨result, _, by rw [render_fst, hrender], fun other => ⟨hlisting.unique, ?_⟩, ?_, ?_, ?_⟩
  · rintro rfl
    exact hlisting
  · rw [hbytes, hlisting.map_fst]
  · rw [hbytes, ← Edit.untouched_sorted]
    exact Edit.untouched_sublist_spliceFrom (Edit.Ahead.of_check hcheck)
  · intro offset
    rw [hbytes]
    exact Edit.textsOf_infix_splice hcheck offset

/-- A draft over a text whose tree is a root and nothing else. -/
def overText (text : String) : Draft :=
  .ofNode ⟨encode text, true⟩
    { kind := "program", mark := ⟨0, (encode text).length, true, false, false, none⟩,
      below := [], above := [] } none {}

/-- Two insertions at the start of a replaced character of two bytes, queued after the replacement
and around an insertion at the end. -/
theorem render_eq_splice_insertions_first :
    let draft := (overText "né!").queue [⟨1, 3, "e"⟩, ⟨1, 1, "x"⟩, ⟨4, 4, "?"⟩, ⟨1, 1, "ü"⟩]
    Edit.check draft.source draft.edits = .ok () ∧
      ∃ result, (draft.render.run {}).1 = .ok result ∧ encode "xüe" <:+: encode result := by
  intro draft
  have hsorted : Edit.sorted draft.edits
      = [⟨1, 1, "x"⟩, ⟨1, 1, "ü"⟩, ⟨1, 3, "e"⟩, ⟨4, 4, "?"⟩] := by
    simp [draft, queue, overText, ofNode, Edit.sorted, List.mergeSort, Edit.notAfter]
  have hcheck : Edit.check draft.source draft.edits = .ok () := by
    unfold Edit.check
    rw [hsorted]
    decide +kernel
  obtain ⟨result, listed, hrender, -, -, -, htexts⟩ :=
    render_eq_splice draft {} ⟨"né!", decode?_encode _⟩ hcheck
  have htogether : encode "xüe" = Edit.textsOf (draft.edits.filter (Edit.hasRange 1 1)
      ++ draft.edits.filter (Edit.replacesFrom 1)) := by decide +kernel
  exact ⟨hcheck, result, hrender, htogether ▸ htexts 1⟩

end Draft

end Arborist
