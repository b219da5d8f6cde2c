import McKube.Atomic.Program
import McKube.Atomic.Interleaving
import McKube.GoLib.Strconv
import McKube.GoLib.Filepath
import McKube.NodeActuator.CgroupFs
import McKube.NodeActuator.Actuator
import McKube.NodeActuator.Footprint
import McKube.NodeActuator.FileTargets
import McKube.NodeActuator.Outcome
import McKube.Atomic.Plan
import McKube.NodeActuator.Preflight
import McKube.NodeActuator.WritePlan
import McKube.NodeActuator.WriteOrder
import McKube.NodeActuator.CoreWriteOrder
import McKube.NodeActuator.PodPaths
import McKube.NodeActuator.Concurrency
import McKube.Trace.Latch
import McKube.Bpf.HashMap
import McKube.Bpf.LazyTable
import McKube.Ebpf.OverrunDetector
import McKube.Ebpf.Episodes
import McKube.Ebpf.ServerLifetimes
import McKube.CpuUtil.AnnotationLoop
import McKube.CpuUtil.BusyFlag
import McKube.Trace.Since
import McKube.CpuUtil.PublishedUsage
import McKube.CpuUtil.Debounce
import McKube.CpuUtil.OverDuration
import McKube.CpuUtil.Restart
import McKube.CpuUtil.ApiServer
import McKube.CpuUtil.LateHandlers
import McKube.Abi.LittleEndian
import McKube.Abi.Layout
import McKube.GoLib.Binary
import McKube.Ebpf.EventRecord
import McKube.GoLib.Regexp
import McKube.Ebpf.ContainerID
import McKube.NodeActuator.Escalation
import McKube.NodeActuator.PodHistory
import McKube.NodeActuator.PeriodBound
import McKube.Systemd.Slice
import McKube.CpuUtil.CommandLine
import McKube.CpuUtil.Usage
import McKube.Ebpf.Accounting
import McKube.NodeActuator.CoreReadBack
import McKube.NodeActuator.Gate
import McKube.NodeActuator.Modes
import McKube.NodeActuator.Repinning
import McKube.NodeActuator.SlicePath
import McKube.NodeActuator.SystemLimit
import McKube.Ebpf.LineScanner
import McKube.Ebpf.MountPoint
import McKube.Ebpf.PodLookup
import McKube.Ebpf.Analysis
import McKube.Ebpf.LoopStatements
import McKube.Ebpf.SignalReport
import McKube.Ebpf.TaskGroups
import McKube.Atomic.Pool
import McKube.NodeActuator.Retries
import McKube.GoLib.Url
import McKube.NodeActuator.Server
import McKube.NodeActuator.PodIsolation
import McKube.Atomic.Register
import McKube.NodeActuator.Parameters
import McKube.Json.Value
import McKube.Json.Scanner
import McKube.Json.Decode
import McKube.NodeActuator.RequestBody
import McKube.CpuUtil.Publication
import McKube.CpuUtil.Sampling
import McKube.Trace.Component
import McKube.CpuUtil.Agent
import McKube.Bpf.RingBuffer
import McKube.Ebpf.Pipeline
import McKube.Ebpf.ControllerPost
import McKube.Ebpf.Report
