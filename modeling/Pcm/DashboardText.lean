import Pcm.Lib.JsonAutomaton

/-!
# Texts of the Grafana dashboard

The targets and panels of the dashboard, and the text that is pasted together from them
(`dashboard.cpp:20-494`).
-/

namespace Pcm.Dashboard

open StdString

/-! ## Targets -/

/-- `PCMDashboardType` -/
inductive DashboardType
  | influxDB | prometheus | prometheusDefault
  deriving DecidableEq, Repr

/-- `InfluxDBTarget`, up to the place of `refId` -/
def influxDBFront (title metric : Bytes) : Bytes :=
  ascii "
        \x7b
          \"alias\": \"" ++ title ++
  ascii "\",
          \"groupBy\": [
            \x7b
              \"params\": [
                \"$__interval\"
              ],
              \"type\": \"time\"
            \x7d,
            \x7b
              \"params\": [
                \"null\"
              ],
              \"type\": \"fill\"
            \x7d
          ],
          \"measurement\": \"http\",
          \"orderByTime\": \"ASC\",
          \"policy\": \"default\",
          \"query\": \"SELECT " ++ metric ++
  ascii " FROM \\\"http\\\" WHERE (\\\"url\\\" = '$node') AND $timeFilter GROUP BY time($__interval) fill(null)\",
          \"rawQuery\": true,
          \"refId\": \""

/-- `InfluxDBTarget`, after `refId` -/
def influxDBBack : Bytes :=
  ascii "\",
          \"resultFormat\": \"time_series\",
          \"select\": [
            [
              \x7b
                \"params\": [
                  \"value\"
                ],
                \"type\": \"field\"
              \x7d,
              \x7b
                \"params\": [],
                \"type\": \"mean\"
              \x7d
            ]
          ],
          \"tags\": []
        \x7d"

/-- `PrometheusTarget`, up to the place of `refId` -/
def prometheusFront (legend expr : Bytes) : Bytes :=
  ascii "
        \x7b
          \"expr\": \"" ++ expr ++
  ascii "\",
          \"instant\": false,
          \"interval\": \"\",
          \"legendFormat\": \"" ++ legend ++
  ascii "\",
          \"refId\": \""

/-- `PrometheusTarget`, after `refId` -/
def prometheusBack : Bytes :=
  ascii "\"
        \x7d"

/-- What `createTarget` is given. -/
structure Target where
  title : Bytes
  influxDBMetric : Bytes
  prometheusExpr : Bytes

def Target.front (type : DashboardType) (t : Target) : Bytes :=
  if type = .influxDB then influxDBFront t.title t.influxDBMetric
  else prometheusFront t.title t.prometheusExpr

def targetBack (type : DashboardType) : Bytes :=
  if type = .influxDB then influxDBBack else prometheusBack

/-- The target that `createTarget` makes, with this `refId`. -/
def Target.text (type : DashboardType) (t : Target) (refId : Bytes) : Bytes :=
  t.front type ++ (refId ++ targetBack type)

/-- `refId` as a string, after it was incremented so many times from `A`. -/
def refId (i : Nat) : Bytes :=
  let c := UInt8.ofNat (65 + i)
  if c = 0 then [] else [c]

/-! ## Panels -/

inductive PanelKind
  | gauge
  | barGauge
  | timeSeries (yAxisLabel : Bytes) (isStacked : Bool)

structure Panel where
  kind : PanelKind
  x : Nat
  y : Nat
  w : Nat
  h : Nat
  title : Bytes
  targets : List Target

/-- `defaultDataSource` -/
def defaultDataSource (type : DashboardType) : Bytes :=
  if type = .prometheusDefault then ascii "\"prometheus\"" else ascii "null"

/-- The targets with their names from this one on. -/
def targetsText (type : DashboardType) : List Target → Nat → Bytes
  | [], _ => []
  | t :: targets, i =>
      (if 0 < i then ascii "," else []) ++ t.text type (refId i) ++ targetsText type targets (i + 1)

/-- The place of a panel. -/
def Panel.gridPos (p : Panel) : Bytes :=
  ascii "        \"x\": " ++ decimal p.x ++ ascii ",\n" ++
  ascii "        \"y\": " ++ decimal p.y ++ ascii ",\n" ++
  ascii "        \"w\": " ++ decimal p.w ++ ascii ",\n" ++
  ascii "        \"h\": " ++ decimal p.h

/-- `getHeader` up to the targets -/
def Panel.beforeTargets (type : DashboardType) (p : Panel) (id : Nat) : Bytes :=
  ascii "
    \x7b
      \"datasource\": " ++ defaultDataSource type ++
  ascii ",
      \"interval\": \"2s\",
      \"gridPos\": \x7b
" ++ p.gridPos ++
  ascii "
      \x7d,
      \"title\": \"" ++ p.title ++
  ascii "\",\n      \"id\": " ++ decimal id ++ ascii ",\n      \"targets\": ["

/-- `getHeader` -/
def Panel.getHeader (type : DashboardType) (p : Panel) (id : Nat) : Bytes :=
  p.beforeTargets type id ++ targetsText type p.targets 0 ++ ascii "\n      ],\n"

/-- What follows the header in `GaugePanel`, `BarGaugePanel` and `TimeSeriesPanel`. -/
def PanelKind.text : PanelKind → Bytes
  | gauge => ascii "      \"options\": \x7b
        \"fieldOptions\": \x7b
          \"calcs\": [
            \"lastNotNull\"
          ],
          \"defaults\": \x7b
            \"mappings\": [],
            \"max\": 100,
            \"min\": 0,
            \"thresholds\": \x7b
              \"mode\": \"absolute\",
              \"steps\": [
                \x7b
                  \"color\": \"green\",
                  \"value\": null
                \x7d,
                \x7b
                  \"color\": \"red\",
                  \"value\": 70
                \x7d
              ]
            \x7d,
            \"unit\": \"%\"
          \x7d,
          \"overrides\": [],
          \"values\": false
        \x7d,
        \"orientation\": \"auto\",
        \"showThresholdLabels\": false,
        \"showThresholdMarkers\": true
      \x7d,
      \"pluginVersion\": \"6.7.2\",
      \"timeFrom\": null,
      \"timeShift\": null,
      \"type\": \"gauge\"
    \x7d"
  | barGauge => ascii "      \"cacheTimeout\": null,
      \"links\": [
        \x7b
          \"title\": \"\",
          \"url\": \"\"
        \x7d
      ],
      \"options\": \x7b
        \"displayMode\": \"lcd\",
        \"fieldOptions\": \x7b
          \"calcs\": [
            \"lastNotNull\"
          ],
          \"defaults\": \x7b
            \"mappings\": [
              \x7b
                \"$$hashKey\": \"object:413\",
                \"id\": 0,
                \"op\": \"=\",
                \"text\": \"N/A\",
                \"type\": 1,
                \"value\": \"null\"
              \x7d
            ],
            \"nullValueMode\": \"connected\",
            \"thresholds\": \x7b
              \"mode\": \"absolute\",
              \"steps\": [
                \x7b
                  \"color\": \"green\",
                  \"value\": null
                \x7d
              ]
            \x7d,
            \"unit\": \"none\"
          \x7d,
          \"overrides\": [],
          \"values\": false
        \x7d,
        \"orientation\": \"vertical\",
        \"showUnfilled\": true
      \x7d,
      \"pluginVersion\": \"6.7.2\",
      \"timeFrom\": null,
      \"timeShift\": null,
      \"type\": \"bargauge\"
    \x7d"
  | timeSeries yAxisLabel isStacked =>
      ascii "      \"aliasColors\": \x7b\x7d,
      \"bars\": false,
      \"dashLength\": 10,
      \"dashes\": false,
      \"fill\": 1,
      \"fillGradient\": 0,
      \"hiddenSeries\": false,
      \"legend\": \x7b
        \"avg\": false,
        \"current\": false,
        \"max\": false,
        \"min\": false,
        \"show\": true,
        \"total\": false,
        \"values\": false
      \x7d,
      \"lines\": true,
      \"linewidth\": 1,
      \"links\": [
        \x7b
          \"title\": \"\",
          \"url\": \"\"
        \x7d
      ],
      \"nullPointMode\": \"null\",
      \"options\": \x7b
        \"dataLinks\": []
      \x7d,
      \"percentage\": false,
      \"pluginVersion\": \"10.4.2\",
      \"pointradius\": 2,
      \"points\": false,
      \"renderer\": \"flot\",
      \"seriesOverrides\": [],
      \"spaceLength\": 10,
      \"stack\": " ++ (if isStacked then ascii "true" else ascii "false") ++
      ascii ",
      \"steppedLine\": false,
      \"thresholds\": [],
      \"timeFrom\": null,
      \"timeRegions\": [],
      \"timeShift\": null,
      \"tooltip\": \x7b
        \"shared\": true,
        \"sort\": 0,
        \"value_type\": \"individual\"
      \x7d,
      \"type\": \"timeseries\",
      \"xaxis\": \x7b
        \"buckets\": null,
        \"mode\": \"time\",
        \"name\": null,
        \"show\": true,
        \"values\": []
      \x7d,
      \"yaxes\": [
        \x7b
          \"$$hashKey\": \"object:2758\",
          \"format\": \"none\",
          \"label\": \"" ++ yAxisLabel ++
      ascii "\",
          \"logBase\": 1,
          \"max\": null,
          \"min\": \"0\",
          \"show\": true
        \x7d,
        \x7b
          \"$$hashKey\": \"object:2759\",
          \"format\": \"none\",
          \"label\": null,
          \"logBase\": 1,
          \"max\": null,
          \"min\": null,
          \"show\": true
        \x7d
      ],
      \"yaxis\": \x7b
        \"align\": false,
        \"alignLevel\": null
      \x7d
    \x7d"

def Panel.text (type : DashboardType) (p : Panel) (id : Nat) : Bytes := p.getHeader type id ++ p.kind.text

/-! ## Dashboards -/

/-- The panels with their ids from this one on. -/
def panelsText (type : DashboardType) : List Panel → Nat → Bytes
  | [], _ => []
  | p :: panels, i =>
      (if 0 < i then ascii "," else []) ++ p.text type (i + 2) ++ panelsText type panels (i + 1)

def definition (type : DashboardType) : Bytes :=
  if type = .influxDB then ascii "\"SHOW TAG VALUES WITH KEY = \\\"url\\\"\""
  else ascii "\"label_values(Number_of_sockets,instance)\""

def query (type : DashboardType) : Bytes :=
  if type = .influxDB then ascii "\"SHOW TAG VALUES WITH KEY = \\\"url\\\"\""
  else ascii "\x7b\"query\": \"label_values(Number_of_sockets,instance)\",\"refId\": \"StandardVariableQuery\"\x7d"

/-- `Dashboard::operator()`, up to the panels -/
def dashboardFront : Bytes :=
  ascii "\x7b
  \"annotations\": \x7b
    \"list\": [
      \x7b
        \"$$hashKey\": \"object:2661\",
        \"builtIn\": 1,
        \"datasource\": \"-- Grafana --\",
        \"enable\": true,
        \"hide\": true,
        \"iconColor\": \"rgba(0, 211, 255, 1)\",
        \"name\": \"Annotations & Alerts\",
        \"type\": \"dashboard\"
      \x7d
    ]
  \x7d,
  \"editable\": true,
  \"gnetId\": null,
  \"graphTooltip\": 0,
  \"id\": 1,
  \"links\": [],
  \"panels\": ["

/-- `Dashboard::operator()`, after the panels -/
def dashboardBack (type : DashboardType) (title : Bytes) : Bytes :=
  ascii "
  ],
  \"refresh\": \"1s\",
  \"schemaVersion\": 22,
  \"style\": \"dark\",
  \"tags\": [],
  \"templating\": \x7b
    \"list\": [
      \x7b
        \"current\": \x7b
          \"selected\": false,
          \"text\": \"ip addr:port\",
          \"value\": \"ip addr:port\"
        \x7d,
        \"datasource\": null,
        \"definition\": " ++ definition type ++
  ascii ",
        \"hide\": 0,
        \"includeAll\": false,
        \"label\": \"Host\",
        \"multi\": false,
        \"name\": \"node\",
        \"options\": [],
        \"query\":" ++ query type ++
  ascii ",
        \"refresh\": 1,
        \"regex\": \"\",
        \"skipUrlSync\": false,
        \"sort\": 0,
        \"type\": \"query\"
      \x7d
    ]
  \x7d,
  \"time\": \x7b
    \"from\": \"now-5m\",
    \"to\": \"now\"
  \x7d,
  \"timepicker\": \x7b
    \"refresh_intervals\": [
      \"1s\",
      \"2s\",
      \"5s\",
      \"10s\",
      \"30s\",
      \"1m\",
      \"5m\",
      \"15m\",
      \"30m\",
      \"1h\",
      \"2h\",
      \"1d\"
    ]
  \x7d,
  \"timezone\": \"\",
  \"title\": \"" ++ title ++
  ascii "\",
  \"uid\": \"A_CvwTCWk\",
  \"variables\": \x7b
    \"list\": []
  \x7d,
  \"version\": 1
\x7d"

/-- `Dashboard::operator()` -/
def dashboard (type : DashboardType) (title : Bytes) (panels : List Panel) : Bytes :=
  dashboardFront ++ (panelsText type panels 0 ++ dashboardBack type title)

end Pcm.Dashboard
