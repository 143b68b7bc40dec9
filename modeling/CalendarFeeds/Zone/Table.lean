import CalendarFeeds.Zone.Change

/-! # The zone table — names, offsets and clock changes

    The zones that definitions may name, each with its changes up to the end of 2099; after that
    the last reading stays in force.  The changes of the zones of the United States are complete
    from 1883 on, those of the others from 2005 on.  Names are matched exactly; a zone with two
    names is listed under both. -/

namespace CalendarFeeds.Zone

/-- The last year with a change of the clocks. -/
def finalYear : Int := 2099

/-- The same clock change on each of a list of dates. -/
def onDates (clock : Int) (reading : Reading) (dates : List (Int × Nat × Nat)) : List Change :=
  dates.map fun (year, month, day) => ⟨year, year, month, .on day, clock, reading⟩

/-- Summer time between the last Sundays of March and October, changed at 01:00 UTC. -/
def europe (firstYear lastYear : Int) (standard summer : Reading) : List Change :=
  [⟨firstYear, lastYear, 3, .last .sunday, 3600, summer⟩,
    ⟨firstYear, lastYear, 10, .last .sunday, 3600, standard⟩]

/-- Daylight time of the United States since 1967: from 2:00 standard time to 2:00 daylight
    time, on Sundays that four laws moved. -/
def unitedStates (standard daylight : Reading) : List Change :=
  let forward := 7200 - standard.offset
  let back := 7200 - daylight.offset
  [⟨1967, 1973, 4, .last .sunday, forward, daylight⟩,
    ⟨1974, 1974, 1, .on 6, forward, daylight⟩,
    ⟨1975, 1975, 2, .on 23, forward, daylight⟩,
    ⟨1976, 1986, 4, .last .sunday, forward, daylight⟩,
    ⟨1987, 2006, 4, .onOrAfter .sunday 1, forward, daylight⟩,
    ⟨1967, 2006, 10, .last .sunday, back, standard⟩,
    ⟨2007, finalYear, 3, .onOrAfter .sunday 8, forward, daylight⟩,
    ⟨2007, finalYear, 11, .onOrAfter .sunday 1, back, standard⟩]

/-- The national daylight time of 1918 and 1919 and the war time of 1942 to 1945. -/
def unitedStatesWars (standard daylight war peace : Reading) : List Change :=
  let forward := 7200 - standard.offset
  let back := 7200 - daylight.offset
  [⟨1918, 1919, 3, .last .sunday, forward, daylight⟩,
    ⟨1918, 1919, 10, .last .sunday, back, standard⟩,
    ⟨1942, 1942, 2, .on 9, forward, war⟩,
    ⟨1945, 1945, 8, .on 14, 82800, peace⟩,
    ⟨1945, 1945, 9, .on 30, back, standard⟩]

def easternStandard : Reading := .of (-18000) "EST"

def easternDaylight : Reading := .of (-14400) "EDT"

def pacificStandard : Reading := .of (-28800) "PST"

def pacificDaylight : Reading := .of (-25200) "PDT"

def newYork (name : String) : Zone :=
  ofChanges name (.of (-17762) "LMT")
    ([once 1883 11 18 17 0 easternStandard]
      ++ unitedStatesWars easternStandard easternDaylight (.of (-14400) "EWT") (.of (-14400) "EPT")
      ++ [⟨1920, 1920, 3, .last .sunday, 25200, easternDaylight⟩,
        ⟨1920, 1920, 10, .last .sunday, 21600, easternStandard⟩,
        ⟨1921, 1941, 4, .last .sunday, 25200, easternDaylight⟩,
        ⟨1921, 1941, 9, .last .sunday, 21600, easternStandard⟩,
        ⟨1946, 1966, 4, .last .sunday, 25200, easternDaylight⟩,
        ⟨1946, 1954, 9, .last .sunday, 21600, easternStandard⟩,
        ⟨1955, 1966, 10, .last .sunday, 21600, easternStandard⟩]
      ++ unitedStates easternStandard easternDaylight)

def losAngeles (name : String) : Zone :=
  ofChanges name (.of (-28378) "LMT")
    ([once 1883 11 18 20 0 pacificStandard]
      ++ unitedStatesWars pacificStandard pacificDaylight (.of (-25200) "PWT") (.of (-25200) "PPT")
      ++ [once 1948 3 14 10 1 pacificDaylight,
        once 1949 1 1 9 0 pacificStandard,
        ⟨1950, 1966, 4, .last .sunday, 32400, pacificDaylight⟩,
        ⟨1950, 1961, 9, .last .sunday, 32400, pacificStandard⟩,
        ⟨1962, 1966, 10, .last .sunday, 32400, pacificStandard⟩]
      ++ unitedStates pacificStandard pacificDaylight)

/-- Clocks of Saint John's, which changed at one minute past midnight until 2011. -/
def saintJohns (name : String) : Zone :=
  let standard : Reading := .of (-12600) "NST"
  let daylight : Reading := .of (-9000) "NDT"
  ofChanges name standard
    [⟨2005, 2006, 4, .onOrAfter .sunday 1, 12660, daylight⟩,
      ⟨2005, 2006, 10, .last .sunday, 9060, standard⟩,
      ⟨2007, 2011, 3, .onOrAfter .sunday 8, 12660, daylight⟩,
      ⟨2007, 2010, 11, .onOrAfter .sunday 1, 9060, standard⟩,
      ⟨2012, finalYear, 3, .onOrAfter .sunday 8, 19800, daylight⟩,
      ⟨2011, finalYear, 11, .onOrAfter .sunday 1, 16200, standard⟩]

def havana (name : String) : Zone :=
  let standard : Reading := .of (-18000) "CST"
  let daylight : Reading := .of (-14400) "CDT"
  ofChanges name daylight
    (onDates 18000 daylight
        [(2007, 3, 11), (2008, 3, 16), (2009, 3, 8), (2010, 3, 14), (2011, 3, 20), (2012, 4, 1)]
      ++ onDates 18000 standard
        [(2006, 10, 29), (2007, 10, 28), (2008, 10, 26), (2009, 10, 25), (2010, 10, 31),
          (2011, 11, 13), (2012, 11, 4)]
      ++ [⟨2013, finalYear, 3, .onOrAfter .sunday 8, 18000, daylight⟩,
        ⟨2013, finalYear, 11, .onOrAfter .sunday 1, 18000, standard⟩])

/-- Clocks of Nuuk, which moved one hour east in 2023. -/
def nuuk (name : String) : Zone :=
  ofChanges name (.of (-10800) "-03")
    (europe 2005 2022 (.of (-10800) "-03") (.of (-7200) "-02")
      ++ [once 2023 3 26 1 0 (.of (-7200) "-02")]
      ++ europe 2024 finalYear (.of (-7200) "-02") (.of (-3600) "-01"))

/-- Clocks of Sao Paulo, which gave up summer time in 2019. -/
def saoPaulo (name : String) : Zone :=
  let standard : Reading := .of (-10800) "-03"
  let summer : Reading := .of (-7200) "-02"
  ofChanges name summer
    (onDates 7200 standard
        [(2005, 2, 20), (2006, 2, 19), (2007, 2, 25), (2008, 2, 17), (2009, 2, 15), (2010, 2, 21),
          (2011, 2, 20), (2012, 2, 26), (2013, 2, 17), (2014, 2, 16), (2015, 2, 22), (2016, 2, 21),
          (2017, 2, 19), (2018, 2, 18), (2019, 2, 17)]
      ++ onDates 10800 summer
        [(2005, 10, 16), (2006, 11, 5), (2007, 10, 14), (2008, 10, 19), (2009, 10, 18),
          (2010, 10, 17), (2011, 10, 16), (2012, 10, 21), (2013, 10, 20), (2014, 10, 19),
          (2015, 10, 18), (2016, 10, 16), (2017, 10, 15), (2018, 11, 4)])

/-- Clocks of Cairo, with summer time until 2010, in 2014 and again since 2023. -/
def cairo (name : String) : Zone :=
  let standard : Reading := .of 7200 "EET"
  let summer : Reading := .of 10800 "EEST"
  ofChanges name standard
    (onDates 79200 summer
        [(2005, 4, 28), (2006, 4, 27), (2007, 4, 26), (2008, 4, 24), (2009, 4, 23), (2010, 4, 29),
          (2010, 9, 9), (2014, 5, 15), (2014, 7, 31)]
      ++ onDates 75600 standard
        [(2005, 9, 29), (2006, 9, 21), (2007, 9, 6), (2008, 8, 28), (2009, 8, 20), (2010, 8, 10),
          (2010, 9, 30), (2014, 6, 26), (2014, 9, 25)]
      ++ [⟨2023, finalYear, 4, .last .friday, -7200, summer⟩,
        ⟨2023, finalYear, 10, .last .thursday, 75600, standard⟩])

/-- Clocks of the Troll station, opened in 2005. -/
def troll (name : String) : Zone :=
  ofChanges name (.of 0 "-00")
    (once 2005 2 12 0 0 (.of 0 "+00") :: europe 2005 finalYear (.of 0 "+00") (.of 7200 "+02"))

/-- Clocks of Tehran, which gave up summer time in 2022. -/
def tehran (name : String) : Zone :=
  let standard : Reading := .of 12600 "+0330"
  let summer : Reading := .of 16200 "+0430"
  ofChanges name standard
    (onDates 73800 summer
        [(2005, 3, 21), (2008, 3, 20), (2009, 3, 21), (2010, 3, 21), (2011, 3, 21), (2012, 3, 20),
          (2013, 3, 21), (2014, 3, 21), (2015, 3, 21), (2016, 3, 20), (2017, 3, 21), (2018, 3, 21),
          (2019, 3, 21), (2020, 3, 20), (2021, 3, 21), (2022, 3, 21)]
      ++ onDates 70200 standard
        [(2005, 9, 21), (2008, 9, 20), (2009, 9, 21), (2010, 9, 21), (2011, 9, 21), (2012, 9, 20),
          (2013, 9, 21), (2014, 9, 21), (2015, 9, 21), (2016, 9, 20), (2017, 9, 21), (2018, 9, 21),
          (2019, 9, 21), (2020, 9, 20), (2021, 9, 21), (2022, 9, 21)])

/-- Clocks of Sydney and Lord Howe, which change on the same Sundays at 2:00 or 3:00 local time;
    the two clock values are seconds from 00:00 UTC of the Sunday. -/
def southEastAustralia (name : String) (standard summer : Reading) (toStandard toSummer : Int) :
    Zone :=
  ofChanges name summer
    [⟨2005, 2005, 3, .last .sunday, toStandard, standard⟩,
      ⟨2006, 2006, 4, .onOrAfter .sunday 1, toStandard, standard⟩,
      ⟨2007, 2007, 3, .last .sunday, toStandard, standard⟩,
      ⟨2008, finalYear, 4, .onOrAfter .sunday 1, toStandard, standard⟩,
      ⟨2005, 2007, 10, .last .sunday, toSummer, summer⟩,
      ⟨2008, finalYear, 10, .onOrAfter .sunday 1, toSummer, summer⟩]

/-- Clocks of Apia, which skipped 2011-12-30 when it crossed the date line. -/
def apia (name : String) : Zone :=
  let standard : Reading := .of 46800 "+13"
  let summer : Reading := .of 50400 "+14"
  ofChanges name (.of (-39600) "-11")
    ([once 2010 9 26 11 0 (.of (-36000) "-10"),
        once 2011 4 2 14 0 (.of (-39600) "-11"),
        once 2011 9 24 14 0 (.of (-36000) "-10"),
        once 2011 12 30 10 0 summer]
      ++ onDates 50400 standard
        [(2012, 3, 31), (2013, 4, 6), (2014, 4, 5), (2015, 4, 4), (2016, 4, 2), (2017, 4, 1),
          (2018, 3, 31), (2019, 4, 6), (2020, 4, 4), (2021, 4, 3)]
      ++ onDates 50400 summer
        [(2012, 9, 29), (2013, 9, 28), (2014, 9, 27), (2015, 9, 26), (2016, 9, 24), (2017, 9, 23),
          (2018, 9, 29), (2019, 9, 28), (2020, 9, 26)])

/-- A zone whose clocks never change. -/
def fixed (name : String) (reading : Reading) : Zone :=
  ⟨name, reading, [], List.Pairwise.nil⟩

/-- A zone with European summer time. -/
def european (name : String) (standard summer : Reading) : Zone :=
  ofChanges name standard (europe 2005 finalYear standard summer)

def table : List Zone :=
  [cairo "Africa/Cairo",
    havana "America/Havana",
    losAngeles "America/Los_Angeles",
    newYork "America/New_York",
    nuuk "America/Nuuk",
    saoPaulo "America/Sao_Paulo",
    saintJohns "America/St_Johns",
    troll "Antarctica/Troll",
    fixed "Asia/Calcutta" (.of 19800 "IST"),
    fixed "Asia/Kathmandu" (.of 20700 "+0545"),
    fixed "Asia/Kolkata" (.of 19800 "IST"),
    tehran "Asia/Tehran",
    fixed "Asia/Tokyo" (.of 32400 "JST"),
    southEastAustralia "Australia/Lord_Howe" (.of 37800 "+1030") (.of 39600 "+11") (-32400) (-30600),
    southEastAustralia "Australia/Sydney" (.of 36000 "AEST") (.of 39600 "AEDT") (-28800) (-28800),
    fixed "EST" (.of (-18000) "EST"),
    newYork "EST5EDT",
    fixed "Etc/GMT+5" (.of (-18000) "-05"),
    fixed "Etc/GMT-14" (.of 50400 "+14"),
    fixed "Etc/UTC" (.of 0 "UTC"),
    european "Europe/Berlin" (.of 3600 "CET") (.of 7200 "CEST"),
    european "Europe/Dublin" (.of 0 "GMT") (.of 3600 "IST"),
    european "Europe/Kiev" (.of 7200 "EET") (.of 10800 "EEST"),
    european "Europe/Kyiv" (.of 7200 "EET") (.of 10800 "EEST"),
    european "Europe/London" (.of 0 "GMT") (.of 3600 "BST"),
    fixed "GMT" (.of 0 "GMT"),
    fixed "GMT+0" (.of 0 "GMT"),
    apia "Pacific/Apia",
    losAngeles "US/Pacific",
    fixed "UTC" (.of 0 "UTC"),
    fixed "Zulu" (.of 0 "UTC")]

def ofName? (name : String) : Option Zone :=
  table.find? fun z => z.name == name

end CalendarFeeds.Zone
