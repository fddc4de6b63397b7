import NpuBroker.Telemetry

/-!
# Exposition

The registry as the lines of a metrics page: the families by name, in each the samples by the
values of their labels. A family with labels is left out until it has a sample.
-/
namespace NpuBroker.Registry

/-- A character of a label value. -/
def escapeLabel (c : Char) : List Char :=
  if c = '\\' then ['\\', '\\']
  else if c = '\n' then ['\\', 'n']
  else if c = '"' then ['\\', '"']
  else [c]

/-- A sample: the values of its labels, and its own. -/
structure Sample where
  labels : List (String × String)
  value : List Char

def Sample.line (family : String) (s : Sample) : String :=
  let pair (label : String × String) : List Char :=
    label.1.toList ++ ['=', '"'] ++ label.2.toList.flatMap escapeLabel ++ ['"']
  let labels := match s.labels with
    | [] => []
    | labels => '\x7b' :: [','].intercalate (labels.map pair) ++ ['\x7d']
  String.ofList (family.toList ++ labels ++ ' ' :: s.value)

/-- The lines of a family. -/
def family (name help type : String) (samples : List Sample) : List String :=
  if samples.isEmpty then []
  else
    let sorted := samples.mergeSort fun a b =>
      !decide (b.labels.map Prod.snd < a.labels.map Prod.snd)
    ("# HELP " ++ name ++ " " ++ help) :: ("# TYPE " ++ name ++ " " ++ type) ::
      sorted.map (Sample.line name)

def lines (g : Registry) : List String :=
  family "npudev_device_count" "Number of NPU devices detected" "gauge"
    [⟨[], Decimal.digits g.deviceCount⟩] ++
  family "npudev_resolve_total" "Total number of device file resolutions" "counter"
    (g.resolved.map fun (o, n) => ⟨[("outcome", o.name)], Decimal.digits n⟩) ++
  family "npudev_sensor_value" "Last hwmon sensor reading" "gauge"
    (g.gauges.map fun (key, value) =>
      ⟨[("device", key.device), ("kind", key.kind.name), ("label", key.label)], value.shortest⟩)

end NpuBroker.Registry
