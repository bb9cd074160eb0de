/-! Kinds of faults. A kind descends from others, so that a handler for a general kind also catches
the special ones: every refused argument is both a fault of this library and a general fault. -/
namespace KeyCapsule

inductive Kind
  | baseException | exception | arithmetic | assertion | access | buffer | endOfFile | floatingPoint
  | absentImport | absentModule | index | key | lookup | memory | name | notImplemented | system
  | overflow | recursion | reference | runtime | stopIteration | grammar | indentation | internal
  | type | unboundLocal | unicode | unicodeDecode | unicodeEncode | value | zeroDivision
  | absentFile | existingFile | permission | timeout | connection
  | blockedTransfer | childProcess | brokenPipe | abortedConnection | refusedConnection
  | resetConnection | interrupted | directory | noDirectory | absentProcess | stopAsyncIteration
  | tab | unicodeTranslate | generatorExit | keyboardInterrupt | systemExit
  | warning | bytesWarning | deprecationWarning | encodingWarning | futureWarning | importWarning
  | pendingDeprecationWarning | resourceWarning | runtimeWarning | grammarWarning | unicodeWarning
  | userWarning
  | kem | invalidKey | invalidParameter | secretRange | unsupportedCombination | missingArgument
  | decapsulate | conformance | rngFailure | frozenInstance | packing
  deriving DecidableEq

namespace Kind

def title : Kind → String
  | baseException => "BaseException"
  | exception => "Exception"
  | arithmetic => "ArithmeticError"
  | assertion => "AssertionError"
  | access => "AttributeError"
  | buffer => "BufferError"
  | endOfFile => "EOFError"
  | floatingPoint => "FloatingPointError"
  | absentImport => "ImportError"
  | absentModule => "ModuleNotFoundError"
  | index => "IndexError"
  | key => "KeyError"
  | lookup => "LookupError"
  | memory => "MemoryError"
  | name => "NameError"
  | notImplemented => "NotImplementedError"
  | system => "OSError"
  | overflow => "OverflowError"
  | recursion => "RecursionError"
  | reference => "ReferenceError"
  | runtime => "RuntimeError"
  | stopIteration => "StopIteration"
  | grammar => "SyntaxError"
  | indentation => "IndentationError"
  | internal => "SystemError"
  | type => "TypeError"
  | unboundLocal => "UnboundLocalError"
  | unicode => "UnicodeError"
  | unicodeDecode => "UnicodeDecodeError"
  | unicodeEncode => "UnicodeEncodeError"
  | value => "ValueError"
  | zeroDivision => "ZeroDivisionError"
  | absentFile => "FileNotFoundError"
  | existingFile => "FileExistsError"
  | permission => "PermissionError"
  | timeout => "TimeoutError"
  | connection => "ConnectionError"
  | blockedTransfer => "BlockingIOError"
  | childProcess => "ChildProcessError"
  | brokenPipe => "BrokenPipeError"
  | abortedConnection => "ConnectionAbortedError"
  | refusedConnection => "ConnectionRefusedError"
  | resetConnection => "ConnectionResetError"
  | interrupted => "InterruptedError"
  | directory => "IsADirectoryError"
  | noDirectory => "NotADirectoryError"
  | absentProcess => "ProcessLookupError"
  | stopAsyncIteration => "StopAsyncIteration"
  | tab => "TabError"
  | unicodeTranslate => "UnicodeTranslateError"
  | generatorExit => "GeneratorExit"
  | keyboardInterrupt => "KeyboardInterrupt"
  | systemExit => "SystemExit"
  | warning => "Warning"
  | bytesWarning => "BytesWarning"
  | deprecationWarning => "DeprecationWarning"
  | encodingWarning => "EncodingWarning"
  | futureWarning => "FutureWarning"
  | importWarning => "ImportWarning"
  | pendingDeprecationWarning => "PendingDeprecationWarning"
  | resourceWarning => "ResourceWarning"
  | runtimeWarning => "RuntimeWarning"
  | grammarWarning => "SyntaxWarning"
  | unicodeWarning => "UnicodeWarning"
  | userWarning => "UserWarning"
  | kem => "KEMError"
  | invalidKey => "InvalidKeyError"
  | invalidParameter => "InvalidParameterError"
  | secretRange => "SecretRangeError"
  | unsupportedCombination => "UnsupportedCombinationError"
  | missingArgument => "MissingArgumentError"
  | decapsulate => "DecapsulateError"
  | conformance => "ConformanceError"
  | rngFailure => "RngFailure"
  | frozenInstance => "FrozenInstanceError"
  | packing => "error"

def all : List Kind :=
  [baseException, exception, arithmetic, assertion, access, buffer, endOfFile, floatingPoint,
    absentImport, absentModule, index, key, lookup, memory, name, notImplemented, system,
    overflow, recursion, reference, runtime, stopIteration, grammar, indentation, internal,
    type, unboundLocal, unicode, unicodeDecode, unicodeEncode, value, zeroDivision,
    absentFile, existingFile, permission, timeout, connection,
    blockedTransfer, childProcess, brokenPipe, abortedConnection, refusedConnection,
    resetConnection, interrupted, directory, noDirectory, absentProcess, stopAsyncIteration,
    tab, unicodeTranslate, generatorExit, keyboardInterrupt, systemExit,
    warning, bytesWarning, deprecationWarning, encodingWarning, futureWarning, importWarning,
    pendingDeprecationWarning, resourceWarning, runtimeWarning, grammarWarning, unicodeWarning,
    userWarning,
    kem, invalidKey, invalidParameter, secretRange, unsupportedCombination, missingArgument,
    decapsulate, conformance, rngFailure, frozenInstance, packing]

/-- Two older names stand for the kind of a failing operating system. -/
def ofTitle? (s : String) : Option Kind :=
  if s == "IOError" || s == "EnvironmentError" then some system else all.find? fun k => k.title == s

def parents : Kind → List Kind
  | baseException => []
  | exception => [baseException]
  | floatingPoint | overflow | zeroDivision => [arithmetic]
  | absentModule => [absentImport]
  | index | key => [lookup]
  | notImplemented | recursion => [runtime]
  | indentation => [grammar]
  | tab => [indentation]
  | unboundLocal => [name]
  | unicode => [value]
  | unicodeDecode | unicodeEncode | unicodeTranslate => [unicode]
  | absentFile | existingFile | permission | timeout | connection | blockedTransfer | childProcess
  | interrupted | directory | noDirectory | absentProcess => [system]
  | brokenPipe | abortedConnection | refusedConnection | resetConnection => [connection]
  | generatorExit | keyboardInterrupt | systemExit => [baseException]
  | bytesWarning | deprecationWarning | encodingWarning | futureWarning | importWarning
  | pendingDeprecationWarning | resourceWarning | runtimeWarning | grammarWarning | unicodeWarning
  | userWarning => [warning]
  | invalidKey | invalidParameter => [kem, value]
  | secretRange => [kem, index]
  | unsupportedCombination => [kem, notImplemented]
  | missingArgument => [kem, type]
  | decapsulate => [kem]
  | conformance => [assertion]
  | rngFailure => [value]
  | frozenInstance => [access]
  | _ => [exception]

/-- No chain of descent is longer than six kinds. -/
def lineage : Nat → Kind → List Kind
  | 0, _ => []
  | depth + 1, k => k :: k.parents.flatMap (lineage depth)

def ancestors (k : Kind) : List Kind := (lineage 6 k).eraseDups

def descendsFrom (k ancestor : Kind) : Bool := (lineage 6 k).contains ancestor

end Kind

end KeyCapsule
