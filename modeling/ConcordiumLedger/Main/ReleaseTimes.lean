import ConcordiumLedger.Common.AmountDisplay
import ConcordiumLedger.Common.CalendarTime
import ConcordiumLedger.Common.Rules
import ConcordiumLedger.Main.App

/-!
# Main.ReleaseTimes

The release times of a scheduled transfer, from the bytes of a pair to the text on the display.

`release_times_rendered`: up to the year 11899 the text is that of the second in which the pair is
released, and a later second is refused. The cut-off of the code is in years since 1900.
-/

namespace ConcordiumLedger

open CMem CProg CProg.Prog Calendar

namespace SignTransferWithSchedule

/-- The release time of the pair at `pos`, in milliseconds. -/
def timestampOf (c : Context) : UInt64 := c.buffer.ptr.u8be c.pos.toNat

/-- What the callback has displayed: the array with the text, and the first step of the flow. -/
structure Renders (time : DateTime) (d' : Device Blob) : Prop where
  bytes : time.text ++ [0] <+: d'.ctx.inner.displayTimestamp.bytes
  step : ∃ rest, d'.shared.display =
    { title := "Release time (UTC)", text := d'.ctx.inner.displayTimestamp.bytes } :: rest

theorem zero_not_mem_text (time : DateTime) : 0 ∉ time.text := by
  have hdecimal := zero_not_mem_decimal time.date.year
  have hdigits : ∀ n, (0 : UInt8) ∉ lastDigits 2 n := by
    intro n hmem
    have hdigit := isDigit_of_mem_lastDigits hmem
    cases hdigit
  simp [DateTime.text, hdecimal, hdigits]

/-- The first step shows the text. -/
theorem Renders.shown {time : DateTime} {d' : Device Blob} (h : Renders time d') :
    d'.shared.display.head?.map Step.shown = some (some time.text) := by
  obtain ⟨rest, hrest⟩ := h.step
  obtain ⟨tail, htail⟩ := h.bytes
  rw [hrest]
  show some (cString d'.ctx.inner.displayTimestamp.bytes) = _
  rw [← htail, List.append_assoc, List.singleton_append,
    cString_append_nul _ _ (zero_not_mem_text time)]

variable {d : Device Blob}

/-- The text of the release time is in the array when it was converted and formatted. -/
theorem wp_releaseTime {tm : Tm} {text : List UInt8}
    (htm : secondsToTm (timestampOf d.ctx.inner / 1000).toNat = some tm) (hyear : tm.year ≤ 9999)
    (htext : timeToDisplayText tm 25 = .ok text) (hlen : text.length ≤ 25) :
    wp releaseTime (fun _ d' => text <+: d'.ctx.inner.displayTimestamp.bytes)
      (fun _ _ => False) d := by
  unfold releaseTime
  simp only [wp_bind, Fw.wp_getCtx, wp_updateHash, Fw.wp_modifyCtx]
  unfold timestampOf at htm
  rw [htm]
  simp only [wp_bind, Fw.wp_modifyCtx, Fw.wp_throwIf, Fw.wp_eval, htext]
  refine ⟨fun hgt => absurd hyear (Int.not_le.mpr hgt), fun _ => ⟨?_, fun e he => by cases he⟩⟩
  intro text' htext'
  cases htext'
  exact Buffer.prefix_memmove _ hlen

theorem wp_releaseTime_late {tm : Tm}
    (htm : secondsToTm (timestampOf d.ctx.inner / 1000).toNat = some tm) (hyear : 9999 < tm.year) :
    wp releaseTime (fun _ _ => False) (fun e _ => e = .invalidParam) d := by
  unfold releaseTime
  simp only [wp_bind, Fw.wp_getCtx, wp_updateHash, Fw.wp_modifyCtx]
  unfold timestampOf at htm
  rw [htm]
  simp only [wp_bind, Fw.wp_modifyCtx, Fw.wp_throwIf]
  exact ⟨fun _ => trivial, fun hle => absurd hyear hle⟩

theorem wp_releaseAmount :
    wp releaseAmount (fun _ d' => d'.ctx.inner.displayTimestamp = d.ctx.inner.displayTimestamp)
      (fun _ _ => False) d := by
  unfold releaseAmount
  simp only [wp_bind, Fw.wp_getCtx, wp_updateHash, Fw.wp_modifyCtx, Fw.wp_eval]
  refine ⟨fun _ _ => trivial, fun e he => ?_⟩
  have hok : amountToGtuDisplay 30 (d.ctx.inner.buffer.ptr.u8be d.ctx.inner.pos.toNat) = _ :=
    amountToGtuDisplay_thirty _
  rw [hok] at he
  cases he

theorem processNext_renders (d : Device Blob)
    (h : d.ctx.inner.scheduledAmountsInCurrentPacket ≠ 0) :
    ∃ time : DateTime, time.unixSeconds = ((timestampOf d.ctx.inner).toNat / 1000 : Nat) ∧
      (time.date.year ≤ 11899 →
        ∃ d', processNextScheduledAmount d = .ok ⟨⟩ d' ∧ Renders time d') ∧
      (11899 < time.date.year → ∃ d', processNextScheduledAmount d = .thrown .invalidParam d') := by
  have hdiv : (timestampOf d.ctx.inner / 1000).toNat = (timestampOf d.ctx.inner).toNat / 1000 := by
    rw [UInt64.toNat_div]
    rfl
  have hlt := (timestampOf d.ctx.inner).toNat_lt
  obtain ⟨tm, htm⟩ := secondsToTm_isSome (t := ((timestampOf d.ctx.inner / 1000).toNat : Int))
    (Int.natCast_nonneg _) (by omega)
  obtain ⟨time, hshows, hunix⟩ := secondsToTm_shows htm (Int.natCast_nonneg _)
  obtain ⟨hrange, hyear0⟩ := secondsToTm_range htm (Int.natCast_nonneg _)
  have hyear := hshows.year
  refine ⟨time, by rw [hunix, hdiv], ?_, ?_⟩
  · intro hle
    obtain ⟨text, htext⟩ := timeToDisplayText_fits hrange hyear0 (by omega)
    have htextEq := timeToDisplayText_eq hshows (by omega) htext
    have hlen := (timeToDisplayText_length hrange hyear0 (by omega) htext).1
    have hwp : wp processNextScheduledAmount (fun _ d' => Renders time d') (fun _ _ => False) d := by
      unfold processNextScheduledAmount
      rw [wp_bind, Fw.wp_getCtx, wp_ite]
      refine ⟨fun h0 => absurd h0 h, fun _ => ?_⟩
      rw [wp_bind]
      refine wp_mono (wp_releaseTime htm (by omega) htext hlen) (fun _ t ht => ?_) fun _ _ hf => hf
      rw [wp_bind]
      refine wp_mono wp_releaseAmount (fun _ t' ht' => ?_) fun _ _ hf => hf
      have htext' : time.text ++ [0] <+: t'.ctx.inner.displayTimestamp.bytes := by
        rw [ht', ← htextEq]
        exact ht
      simp only [wp_bind, Fw.wp_modifyCtx, Fw.wp_getCtx, wp_ite, wp_uxFlowInit]
      exact ⟨fun _ => ⟨htext', _, rfl⟩, fun _ => ⟨htext', _, rfl⟩⟩
    obtain ⟨_, d', hrun, hd'⟩ := exists_ok_of_wp hwp fun _ _ hf => hf
    exact ⟨d', hrun, hd'⟩
  · intro hgt
    have hwp : wp processNextScheduledAmount (fun _ _ => False) (fun e _ => e = .invalidParam) d := by
      unfold processNextScheduledAmount
      rw [wp_bind, Fw.wp_getCtx, wp_ite]
      refine ⟨fun h0 => absurd h0 h, fun _ => ?_⟩
      rw [wp_bind]
      exact wp_mono (wp_releaseTime_late htm (by omega)) (fun _ _ hf => hf.elim) fun _ _ he => he
    cases hrun : processNextScheduledAmount d with
    | ok a d' => exact (of_wp_ok hwp hrun).elim
    | thrown e d' =>
      have he := of_wp_thrown hwp hrun
      subst he
      exact ⟨d', rfl⟩

/-- Up to the year 11899 a release time is displayed as the date and time of its second, in the 25
bytes of the array; the display of two releases is the same only if their seconds are. -/
theorem release_times_rendered (d : Device Blob)
    (h : d.ctx.inner.scheduledAmountsInCurrentPacket ≠ 0) :
    (∃ time : DateTime, time.unixSeconds = ((timestampOf d.ctx.inner).toNat / 1000 : Nat) ∧
      (time.date.year ≤ 11899 → ∃ d', processNextScheduledAmount d = .ok ⟨⟩ d' ∧
        Renders time d' ∧ (time.text ++ [0]).length ≤ 25 ∧
        d'.shared.display.head?.map Step.shown = some (some time.text)) ∧
      (11899 < time.date.year → ∃ d', processNextScheduledAmount d = .thrown .invalidParam d')) ∧
    (∀ d' e e', e.ctx.inner.scheduledAmountsInCurrentPacket ≠ 0 →
      processNextScheduledAmount d = .ok ⟨⟩ d' → processNextScheduledAmount e = .ok ⟨⟩ e' →
      d'.shared.display.head?.map Step.shown = e'.shared.display.head?.map Step.shown →
      (timestampOf d.ctx.inner).toNat / 1000 = (timestampOf e.ctx.inner).toNat / 1000) := by
  refine ⟨?_, ?_⟩
  · obtain ⟨time, hunix, hok, hlate⟩ := processNext_renders d h
    refine ⟨time, hunix, ?_, hlate⟩
    intro hle
    obtain ⟨d', hrun, hd'⟩ := hok hle
    have hlen := hd'.bytes.length_le
    rw [Buffer.length_eq] at hlen
    exact ⟨d', hrun, hd', hlen, hd'.shown⟩
  · intro d' e e' he hrun hrun' hsame
    have hshown : ∀ {d d' : Device Blob}, d.ctx.inner.scheduledAmountsInCurrentPacket ≠ 0 →
        processNextScheduledAmount d = .ok ⟨⟩ d' →
        ∃ time : DateTime, time.unixSeconds = ((timestampOf d.ctx.inner).toNat / 1000 : Nat) ∧
          d'.shared.display.head?.map Step.shown = some (some time.text) := by
      intro d d' hd hrun
      obtain ⟨time, hunix, hok, hlate⟩ := processNext_renders d hd
      by_cases hle : time.date.year ≤ 11899
      · obtain ⟨d'', hrun', hd''⟩ := hok hle
        rw [hrun] at hrun'
        cases hrun'
        exact ⟨time, hunix, hd''.shown⟩
      · obtain ⟨d'', hrun'⟩ := hlate (Nat.not_le.mp hle)
        rw [hrun] at hrun'
        cases hrun'
    obtain ⟨time, hunix, hd'⟩ := hshown h hrun
    obtain ⟨time', hunix', he'⟩ := hshown he hrun'
    rw [hd', he'] at hsame
    have htime := DateTime.text_injective (Option.some.inj (Option.some.inj hsame))
    rw [htime, hunix'] at hunix
    exact Int.ofNat_inj.mp hunix.symm

/-- The 29th of February 2024, in the afternoon. -/
def leapDay : DateTime where
  date :=
    { year := 2024
      month := 2
      day := 29
      month_range := by decide
      day_range := by decide }
  hour := 12
  minute := 34
  second := 56
  hour_lt := by decide
  minute_lt := by decide
  second_lt := by decide

/-- A release 789 milliseconds later. -/
def leapDayRelease : Device Blob where
  ctx := { (default : Blob) with
    inner := { (default : Context) with
      scheduledAmountsInCurrentPacket := 1
      buffer := (default : Buffer 255).memmove 0
        [0x00, 0x00, 0x01, 0x8D, 0xF4, 0xDC, 0x54, 0x95] } }
  shared := bootedDevice.shared

theorem leapDay_unixSeconds : leapDay.unixSeconds = 1709210096 := by
  have hyears := daysBeforeYear_eq 2024
  have hdays : daysBeforeMonth (isLeap 2024) 1 = 31 := by decide
  rw [DateTime.unixSeconds, DateTime.unixEpoch_seconds]
  simp only [DateTime.seconds, leapDay, Date.dayNumber, Date.dayOfYear, hdays]
  omega

theorem release_times_rendered_leap_day :
    leapDayRelease.ctx.inner.scheduledAmountsInCurrentPacket ≠ 0 ∧
      timestampOf leapDayRelease.ctx.inner = 1709210096789 ∧
      ∃ d', processNextScheduledAmount leapDayRelease = .ok ⟨⟩ d' ∧
        d'.shared.display.head?.map Step.shown = some (some (ascii "2024-02-29 12:34:56")) := by
  have htime : timestampOf leapDayRelease.ctx.inner = 1709210096789 := by decide
  refine ⟨by decide, htime, ?_⟩
  obtain ⟨time, hunix, hok, _⟩ := (release_times_rendered leapDayRelease (by decide)).1
  have hday : time = leapDay := by
    apply DateTime.unixSeconds_injective
    rw [hunix, htime, leapDay_unixSeconds]
    rfl
  subst hday
  obtain ⟨d', hrun, _, _, hshown⟩ := hok (by decide)
  have htext : leapDay.text = ascii "2024-02-29 12:34:56" := by decide
  rw [htext] at hshown
  exact ⟨d', hrun, hshown⟩

end SignTransferWithSchedule

end ConcordiumLedger
