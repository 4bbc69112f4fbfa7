import ScaphandreFormal.Sensors.HostEnergy

/-!
# When the host power is the power of the host

The host compares two sums.  The difference is the energy of the machine when
both sums are over the same counters and none of them has wrapped in between;
a sum does not tell.  A decrease is the only sign of trouble that is noticed.
-/

namespace ScaphandreFormal.Sensors

open Foundation

variable {F Trace : Type} [Float64 F]

namespace HostReading

/-- The counter of a source as a refresh read it, zero when it did not. -/
def counter (reading : HostReading) (source : Source) : Nat :=
  (reading.file source).value?.getD 0

/-- What the counters of `sources` show to have been added between two readings. -/
def gained (previous last : HostReading) (sources : List Source) : Int :=
  (sources.map fun source => (last.counter source : Int) - previous.counter source).sum

theorem gained_eq (previous last : HostReading) (sources : List Source) :
    gained previous last sources =
      ((sources.map last.counter).sum : Nat) - ((sources.map previous.counter).sum : Nat) := by
  induction sources with
  | nil => rfl
  | cons source rest ih =>
      unfold gained at ih ⊢
      simp only [List.map_cons, List.sum_cons, ih]
      omega

end HostReading

namespace Topology

/-! ## The same counters in both records -/

/-- Whenever the host has a power, it is based on what one set of counters gained between
the last two refreshes, the set both records were summed from. -/
def PowerOfFixedSources (topology : Topology F Trace) (events : List (HostRefresh F Trace)) :
    Prop :=
  ∀ now, ((run refreshHost topology events).getRecordsDiffPowerMicrowatts now).isSome →
    ∃ earlier previous last, events = earlier ++ [previous, last] ∧
      topology.sourcesRead previous.reading = topology.sourcesRead last.reading ∧
      (run refreshHost topology events).energyDiff.map Int.ofNat =
        some (previous.reading.gained last.reading (topology.sourcesRead last.reading))

/-- The two refreshes read the same counters, or the host notices: the psys text is no
number, or the second sum is the smaller one. -/
def Comparable (topology : Topology F Trace) (previous last : HostReading) : Prop :=
  topology.sourcesRead previous = topology.sourcesRead last ∨
    match topology.recordedEnergy previous, topology.recordedEnergy last with
    | some before, some after => after < before
    | _, _ => True

omit [Float64 F] in
/-- The energy recorded is the sum over the counters read. -/
theorem recordedEnergy_eq {topology : Topology F Trace} {reading : HostReading} {energy : Nat}
    (recorded : topology.recordedEnergy reading = some energy) :
    energy = ((topology.sourcesRead reading).map reading.counter).sum := by
  unfold recordedEnergy at recorded
  unfold sourcesRead HostReading.counter
  cases psys : reading.file .psys with
  | counter microjoules fits =>
      rw [psys] at recorded
      cases recorded
      simp [EnergyFile.content, EnergyFile.value?, psys]
  | garbled content unparsable =>
      rw [psys] at recorded
      cases recorded
  | unreadable =>
      rw [psys] at recorded
      cases recorded
      simp only [EnergyFile.content]
      induction topology.energySources with
      | nil => rfl
      | cons source rest ih =>
          rw [List.filterMap_cons, List.filter_cons]
          cases read : (reading.file source).value? with
          | none => simpa using ih
          | some microjoules => simp [read, ih]

variable {topology : Topology F Trace}

theorem energyDiff_of_short (isNew : topology.IsNew) {events : List (HostRefresh F Trace)}
    (short : lastTwo events = none) : (run refreshHost topology events).energyDiff = none := by
  match events, short with
  | [], _ => simp [energyDiff, isNew.1, lastTwo]
  | [event], _ =>
      rw [run_cons, run_nil, energyDiff, lastTwo_refreshHost isNew.2, isNew.1]
      rfl
  | first :: second :: rest, short =>
      have long : 2 ≤ (first :: second :: rest).reverse.length := by simp
      unfold lastTwo at short
      split at short
      · cases short
      · rename_i mismatch
        rcases reversed : (first :: second :: rest).reverse with _ | ⟨last, _ | ⟨previous, older⟩⟩
        · simp [reversed] at long
        · simp [reversed] at long
        · exact absurd reversed (mismatch last previous older)

theorem powerOfFixedSources_iff (small : topology.bufferMaxKbytes = 1)
    (earlier : List (HostRefresh F Trace)) (previous last : HostRefresh F Trace) :
    topology.PowerOfFixedSources (earlier ++ [previous, last]) ↔
      topology.Comparable previous.reading last.reading := by
  constructor
  · intro fixed
    cases first : topology.recordedEnergy previous.reading with
    | none => exact Or.inr (by rw [first]; trivial)
    | some before =>
        cases second : topology.recordedEnergy last.reading with
        | none => exact Or.inr (by rw [first, second]; trivial)
        | some after =>
            rcases Nat.lt_or_ge after before with less | atLeast
            · exact Or.inr (by rw [first, second]; exact less)
            · have found := (energyDiff_run small earlier previous last _).mpr
                ⟨before, after, first, second, atLeast, rfl⟩
              have hasPower := (isSome_getRecordsDiffPowerMicrowatts 0 _).mpr
                (Option.isSome_iff_exists.mpr ⟨_, found⟩)
              obtain ⟨others, other, final, same, sources, _⟩ := fixed 0 hasPower
              obtain ⟨_, pair⟩ := List.append_inj' same rfl
              cases pair
              exact Or.inl sources
  · intro comparable now hasPower
    rw [isSome_getRecordsDiffPowerMicrowatts] at hasPower
    obtain ⟨diff, found⟩ := Option.isSome_iff_exists.mp hasPower
    obtain ⟨before, after, first, second, atLeast, rfl⟩ :=
      (energyDiff_run small earlier previous last diff).mp found
    rcases comparable with sources | noticed
    · refine ⟨earlier, previous, last, rfl, sources, ?_⟩
      have before_eq := recordedEnergy_eq first
      have after_eq := recordedEnergy_eq second
      rw [found, HostReading.gained_eq, ← after_eq, ← sources, ← before_eq, Option.map_some]
      simp only [Int.ofNat_eq_natCast, Option.some.injEq]
      omega
    · rw [first, second] at noticed
      exact absurd noticed (Nat.not_lt.mpr atLeast)

/-- Over a whole run the host power is that of one set of counters after every refresh just
when any two refreshes in a row are comparable. -/
theorem always_powerOfFixedSources_iff_comparable (isNew : topology.IsNew)
    (events : List (HostRefresh F Trace)) :
    (∀ taken, taken <+: events → topology.PowerOfFixedSources taken) ↔
      ∀ earlier previous last, earlier ++ [previous, last] <+: events →
        topology.Comparable previous.reading last.reading := by
  constructor
  · intro always earlier previous last isTaken
    exact (powerOfFixedSources_iff isNew.2 earlier previous last).mp (always _ isTaken)
  · intro comparable taken isTaken
    cases pair : lastTwo taken with
    | none =>
        intro now hasPower
        rw [isSome_getRecordsDiffPowerMicrowatts, energyDiff_of_short isNew pair] at hasPower
        cases hasPower
    | some refreshes =>
        obtain ⟨previous, last⟩ := refreshes
        obtain ⟨earlier, rfl⟩ := lastTwo_eq_some_iff.mp pair
        exact (powerOfFixedSources_iff isNew.2 earlier previous last).mpr
          (comparable earlier previous last isTaken)

end Topology

/-- A new topology with one socket and its dram domain. -/
def packageWithDram : Topology ExactFloat Unit where
  sockets :=
    [{ id := 0
       domains :=
        [{ id := 0
           name := Topology.dramName
           recordBuffer := []
           bufferMaxKbytes := 1
           raplMaxUj := u64Max
           backgroundPowerUw := .num 0
           relatedResource := none }]
       recordBuffer := []
       bufferMaxKbytes := 1
       activationIdleBuffer := []
       cpuCores := []
       raplMaxUj := u64Max }]
  procTracker := ⟨[], 1, 5⟩
  recordBuffer := []
  bufferMaxKbytes := 1
  activationIdleBuffer := fun _ => []
  cpuTimeBuffer := []

/-- A refresh at second `second` that finds the given package and dram counters. -/
def hostRefreshAt (second : Nat) (package dram : EnergyFile) : HostRefresh ExactFloat Unit where
  input :=
    { now := second * 10 ^ 9
      drained := []
      socketReading := fun _ => ⟨none, fun _ => none⟩
      coreReading := fun _ _ => ⟨0, 0, 0, 0, 0, 0, 0, 0, .num 0, .num 0, 0⟩
      processes := []
      cpuTime := none
      energy := none }
  reading :=
    { now := second * 10 ^ 9
      file := fun source => match source with
        | .psys => .unreadable
        | .package _ => package
        | .domain _ _ => dram }

namespace Topology

/-- Three refreshes that read the package counter only, the dram counter failing each time. -/
theorem always_powerOfFixedSources_iff_comparable_without_dram :
    let events := [hostRefreshAt 1 (.counter 100 (by decide)) .unreadable,
      hostRefreshAt 2 (.counter 110 (by decide)) .unreadable, hostRefreshAt 3 (.counter 130 (by decide)) .unreadable]
    ∀ taken, taken <+: events → packageWithDram.PowerOfFixedSources taken := by
  intro events
  refine (always_powerOfFixedSources_iff_comparable ⟨rfl, rfl⟩ events).mpr ?_
  intro earlier previous last isTaken
  have alike : ∀ event ∈ events, packageWithDram.sourcesRead event.reading = [.package 0] := by
    intro event member
    simp only [events, List.mem_cons, List.not_mem_nil, or_false] at member
    rcases member with rfl | rfl | rfl
    · decide
    · decide
    · decide
  have inside := isTaken.subset
  refine Or.inl ?_
  rw [alike previous (inside (by simp)), alike last (inside (by simp))]

/-- The dram counter cannot be read in the first of two refreshes: the whole counter appears
as energy of the host in the second. -/
theorem not_powerOfFixedSources_of_recovered_dram :
    let events := [hostRefreshAt 1 (.counter 100 (by decide)) .unreadable,
      hostRefreshAt 2 (.counter 110 (by decide)) (.counter 5000 (by decide))]
    packageWithDram.IsNew ∧
      (run refreshHost packageWithDram events).energyDiff = some 5010 ∧
      ¬ ∀ taken, taken <+: events → packageWithDram.PowerOfFixedSources taken := by
  intro events
  have diff : (run refreshHost packageWithDram events).energyDiff = some 5010 := by
    decide +kernel
  refine ⟨⟨rfl, rfl⟩, diff, ?_⟩
  intro always
  have hasPower : ((run refreshHost packageWithDram events).getRecordsDiffPowerMicrowatts 0
      ).isSome := by
    rw [isSome_getRecordsDiffPowerMicrowatts, diff]
    rfl
  obtain ⟨earlier, previous, last, same, sources, _⟩ :=
    always events List.prefix_rfl 0 hasPower
  obtain ⟨_, pair⟩ := List.append_inj' (show [] ++ events = earlier ++ [previous, last] from same)
    rfl
  simp only [events, List.cons.injEq, and_true] at pair
  obtain ⟨rfl, rfl⟩ := pair
  exact absurd sources (by decide)

/-! ## Counters that wrap -/

/-- Between two refreshes without psys and without failures, every counter of the machine
gains less than its range and shows the gain modulo the range. -/
structure Advances (topology : Topology F Trace) (range before gain : Source → Nat)
    (previous last : HostReading) : Prop where
  noPsys : previous.file .psys = .unreadable ∧ last.file .psys = .unreadable
  before_lt : ∀ source ∈ topology.energySources, before source < range source
  gain_lt : ∀ source ∈ topology.energySources, gain source < range source
  first : ∀ source ∈ topology.energySources,
    (previous.file source).value? = some (before source)
  second : ∀ source ∈ topology.energySources,
    (last.file source).value? = some ((before source + gain source) % range source)

/-- The counters that wrap. -/
def wrapping (topology : Topology F Trace) (range before gain : Source → Nat) : List Source :=
  topology.energySources.filter fun source => range source ≤ before source + gain source

/-- What the counters show at the end, and the ranges they have lost. -/
theorem sum_wrapped (sources : List Source) (range before gain : Source → Nat)
    (before_lt : ∀ source ∈ sources, before source < range source)
    (gain_lt : ∀ source ∈ sources, gain source < range source) :
    (sources.map fun source => (before source + gain source) % range source).sum +
        ((sources.filter fun source => range source ≤ before source + gain source).map
          range).sum =
      (sources.map before).sum + (sources.map gain).sum := by
  induction sources with
  | nil => rfl
  | cons source rest ih =>
      have later := ih (fun other member => before_lt other (List.mem_cons_of_mem _ member))
        (fun other member => gain_lt other (List.mem_cons_of_mem _ member))
      have low := before_lt source List.mem_cons_self
      have small := gain_lt source List.mem_cons_self
      simp only [List.map_cons, List.sum_cons, List.filter_cons, decide_eq_true_eq]
      by_cases wraps : range source ≤ before source + gain source
      · have shown : (before source + gain source) % range source =
            before source + gain source - range source := by
          rw [Nat.mod_eq_sub_mod wraps, Nat.mod_eq_of_lt (by omega)]
        rw [if_pos wraps, shown, List.map_cons, List.sum_cons]
        omega
      · rw [if_neg wraps, Nat.mod_eq_of_lt (by omega)]
        omega

variable {topology : Topology F Trace}

section Wrap

variable {range before gain : Source → Nat} {previous last : HostReading}

omit [Float64 F] in
theorem recordedEnergy_of_counters {reading : HostReading} {shown : Source → Nat}
    (noPsys : reading.file .psys = .unreadable)
    (counters : ∀ source ∈ topology.energySources,
      (reading.file source).value? = some (shown source)) :
    topology.recordedEnergy reading = some (topology.energySources.map shown).sum := by
  have read : topology.energySources.filterMap (fun source => (reading.file source).value?) =
      topology.energySources.map shown := by
    rw [← List.filterMap_eq_map]
    apply List.filterMap_congr
    intro source member
    rw [counters source member, Function.comp_apply]
  rw [recordedEnergy, noPsys, ← read]

omit [Float64 F] in
/-- No range is lost just when no counter wraps. -/
theorem sum_range_wrapping_eq_zero_iff
    (advances : topology.Advances range before gain previous last) :
    ((topology.wrapping range before gain).map range).sum = 0 ↔
      ∀ source ∈ topology.energySources, before source + gain source < range source := by
  have listed (source : Source) : source ∈ topology.wrapping range before gain ↔
      source ∈ topology.energySources ∧ range source ≤ before source + gain source := by
    simp only [wrapping, List.mem_filter, decide_eq_true_eq]
  rw [List.sum_eq_zero_iff]
  constructor
  · intro empty source member
    have low := advances.before_lt source member
    by_contra wraps
    have zero := empty (range source)
      (List.mem_map_of_mem ((listed source).mpr ⟨member, Nat.le_of_not_lt wraps⟩))
    omega
  · intro fits lost isLost
    obtain ⟨source, isWrapping, _⟩ := List.mem_map.mp isLost
    obtain ⟨member, wraps⟩ := (listed source).mp isWrapping
    exact absurd (fits source member) (Nat.not_lt.mpr wraps)

end Wrap

/-- After two refreshes in a row the host has no power, or one based on all the energy added,
just when no counter has wrapped, or those that have lost more than all counters gained. -/
theorem energyDiff_eq_gain_iff (small : topology.bufferMaxKbytes = 1)
    (earlier : List (HostRefresh F Trace)) (previous last : HostRefresh F Trace)
    {range before gain : Source → Nat}
    (advances : topology.Advances range before gain previous.reading last.reading) :
    (∀ now, ((run refreshHost topology (earlier ++ [previous, last])
        ).getRecordsDiffPowerMicrowatts now).isSome →
      (run refreshHost topology (earlier ++ [previous, last])).energyDiff =
        some (topology.energySources.map gain).sum) ↔
      (∀ source ∈ topology.energySources, before source + gain source < range source) ∨
        (topology.energySources.map gain).sum <
          ((topology.wrapping range before gain).map range).sum := by
  have first := recordedEnergy_of_counters advances.noPsys.1 advances.first
  have second := recordedEnergy_of_counters advances.noPsys.2 advances.second
  have balance := sum_wrapped topology.energySources range before gain advances.before_lt
    advances.gain_lt
  have lost := sum_range_wrapping_eq_zero_iff advances
  have diff := energyDiff_run small earlier previous last
  simp only [first, second, Option.some.injEq, exists_and_left, exists_eq_left'] at diff
  rw [← lost]
  change _ + ((topology.wrapping range before gain).map range).sum = _ at balance
  constructor
  · intro based
    rcases Nat.lt_or_ge (topology.energySources.map gain).sum
      ((topology.wrapping range before gain).map range).sum with more | atMost
    · exact Or.inr more
    · have found := (diff _).mpr ⟨by omega, rfl⟩
      have hasPower := (isSome_getRecordsDiffPowerMicrowatts 0 _).mpr
        (Option.isSome_iff_exists.mpr ⟨_, found⟩)
      obtain ⟨_, same⟩ := (diff _).mp (based 0 hasPower)
      exact Or.inl (by omega)
  · intro condition now hasPower
    rw [isSome_getRecordsDiffPowerMicrowatts] at hasPower
    obtain ⟨energy, found⟩ := Option.isSome_iff_exists.mp hasPower
    obtain ⟨atLeast, same⟩ := (diff energy).mp found
    rw [found, Option.some.injEq]
    omega

/-- A value for the package counter and one for the dram counter. -/
def perSource (package dram : Nat) : Source → Nat
  | .package _ => package
  | _ => dram

theorem advances_hostRefreshAt {package dram packageGain dramGain : Nat}
    {packageFile dramFile laterPackageFile laterDramFile : EnergyFile}
    (packageFits : package < 100 ∧ packageGain < 100) (dramFits : dram < 100 ∧ dramGain < 100)
    (packageFirst : packageFile.value? = some package) (dramFirst : dramFile.value? = some dram)
    (packageSecond : laterPackageFile.value? = some ((package + packageGain) % 100))
    (dramSecond : laterDramFile.value? = some ((dram + dramGain) % 100)) :
    packageWithDram.Advances (fun _ => 100) (perSource package dram)
      (perSource packageGain dramGain) (hostRefreshAt 1 packageFile dramFile).reading
      (hostRefreshAt 2 laterPackageFile laterDramFile).reading := by
  have counters : packageWithDram.energySources = [.package 0, .domain 0 0] := by decide
  constructor
  · exact ⟨rfl, rfl⟩
  all_goals
    intro source member
    rw [counters] at member
    rcases List.mem_pair.mp member with rfl | rfl
  · exact packageFits.1
  · exact dramFits.1
  · exact packageFits.2
  · exact dramFits.2
  · exact packageFirst
  · exact dramFirst
  · exact packageSecond
  · exact dramSecond

/-- The package counter wraps and so loses more than both counters gained: no power. -/
theorem energyDiff_eq_gain_iff_lone_wrap :
    let previous := hostRefreshAt 1 (.counter 90 (by decide)) (.counter 10 (by decide))
    let last := hostRefreshAt 2 (.counter 10 (by decide)) (.counter 15 (by decide))
    ∀ now, ((run refreshHost packageWithDram [previous, last]
        ).getRecordsDiffPowerMicrowatts now).isSome →
      (run refreshHost packageWithDram [previous, last]).energyDiff = some 25 := by
  intro previous last
  have advances : packageWithDram.Advances (fun _ => 100) (perSource 90 10) (perSource 20 5)
      previous.reading last.reading :=
    advances_hostRefreshAt (by decide) (by decide) rfl rfl rfl rfl
  exact (energyDiff_eq_gain_iff rfl [] previous last advances).mpr (Or.inr (by decide))

/-- The package counter wraps while the dram counter gains nearly its range: the sum rises by
15 although 115 were added. -/
theorem not_energyDiff_eq_gain_of_hidden_wrap :
    let previous := hostRefreshAt 1 (.counter 90 (by decide)) (.counter 0 (by decide))
    let last := hostRefreshAt 2 (.counter 10 (by decide)) (.counter 95 (by decide))
    packageWithDram.Advances (fun _ => 100) (perSource 90 0) (perSource 20 95)
        previous.reading last.reading ∧
      (packageWithDram.energySources.map (perSource 20 95)).sum = 115 ∧
      (run refreshHost packageWithDram [previous, last]).energyDiff = some 15 ∧
      ¬ ∀ now, ((run refreshHost packageWithDram [previous, last]
          ).getRecordsDiffPowerMicrowatts now).isSome →
        (run refreshHost packageWithDram [previous, last]).energyDiff = some 115 := by
  intro previous last
  have diff : (run refreshHost packageWithDram [previous, last]).energyDiff = some 15 := by
    decide +kernel
  refine ⟨advances_hostRefreshAt (by decide) (by decide) rfl rfl rfl rfl, by decide, diff, ?_⟩
  intro based
  have hasPower : ((run refreshHost packageWithDram [previous, last]
      ).getRecordsDiffPowerMicrowatts 0).isSome := by
    rw [isSome_getRecordsDiffPowerMicrowatts, diff]
    rfl
  have other := based 0 hasPower
  rw [diff] at other
  cases other

end Topology

end ScaphandreFormal.Sensors
