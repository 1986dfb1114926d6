import NativeBindings.CSharp.Signature

/-!
# Marker units

The two units with the types that markers are written with. Their text is fixed but for the
namespace.

## Main definitions

- `MarkerUnit.imports` — symbol accesses, libraries, conditions and the attributes of imports
- `MarkerUnit.constants` — cultures and the attribute of constants
-/

namespace NativeBindings
namespace MarkerUnit

/-- The attribute of members that editors do not show. -/
def hiddenFromEditors : String :=
  "[global::System.ComponentModel.EditorBrowsable(global::System.ComponentModel.EditorBrowsableState.Never)]"

/-- The remark on members that are not meant to be used. -/
def internalUse : String := "/// <remarks>For internal use only</remarks>"

/-- The declaration of the namespace of a whole unit. -/
def namespaceLine (markerNamespace : String) : Fragment :=
  .line ("namespace " ++ markerNamespace ++ ";")

/-- The enumeration of symbol accesses. -/
def accessEnum : List Fragment :=
  [.line "/// <summary>Kind of access a method provides to an imported native symbol</summary>",
   .braced "internal enum NativeImportSymbolKind"
     [.line "/// <summary>Chooses <see cref=\"Getter\"/> or <see cref=\"Setter\"/> from the target method's signature</summary>",
      .line "/// <remarks><see cref=\"Reference\"/> is never chosen automatically</remarks>",
      .line "Auto = 0,",
      .blank,
      .line "/// <summary>Reads the imported native symbol</summary>",
      .line "/// <remarks>A <c>ref</c> or <c>ref readonly</c> return treats the symbol as a pointer to the returned type</remarks>",
      .line "Getter = 1,",
      .blank,
      .line "/// <summary>Writes the imported native symbol</summary>",
      .line "/// <remarks>",
      .line "/// A <c>ref</c>, <c>in</c> or <c>ref readonly</c> parameter treats the symbol as a pointer to the parameter type.",
      .line "/// The argument is only pinned while it is stored, so a managed reference may move afterwards.",
      .line "/// </remarks>",
      .line "Setter = 2,",
      .blank,
      .line "/// <summary>Returns a reference to the imported native symbol</summary>",
      .line "/// <remarks>The target method must return by <c>ref</c> or <c>ref readonly</c></remarks>",
      .line "Reference = 3"]]

/-- The interface of libraries. -/
def libraryInterface : List Fragment :=
  [.line "/// <summary>Describes how a native library is located and loaded</summary>",
   .braced "internal interface INativeImportLibrary"
     [.line "/// <summary>Gets the name and search path of the native library</summary>",
      .line "/// <returns>",
      .line "/// A <see langword=\"null\"/> <c>libraryName</c> stops any further attempt to load the library and skips all of its symbols.",
      .line "/// <c>searchPath</c> is passed to <see cref=\"global::System.Runtime.InteropServices.NativeLibrary.Load(string, global::System.Reflection.Assembly, global::System.Runtime.InteropServices.DllImportSearchPath?)\"/> and may be <see langword=\"null\"/>.",
      .line "/// </returns>",
      .line "/// <remarks>Called again after every failed attempt that <see cref=\"HandleLibraryImportError(string?, global::System.Runtime.InteropServices.DllImportSearchPath?, global::System.Runtime.ExceptionServices.ExceptionDispatchInfo?)\"/> chose to retry</remarks>",
      .line "internal static abstract (string? libraryName, global::System.Runtime.InteropServices.DllImportSearchPath? searchPath) GetLibraryNameAndSearchPath();",
      .blank,
      .line "/// <summary>Handles a failed attempt to load the native library</summary>",
      .line "/// <param name=\"libraryName\">The name that failed to load; blank when no usable name was provided</param>",
      .line "/// <param name=\"searchPath\">The search path of the failed attempt</param>",
      .line "/// <param name=\"libraryLoadErrorInfo\">The captured exception, or <see langword=\"null\"/> when <paramref name=\"libraryName\"/> was blank</param>",
      .line "/// <returns><see langword=\"true\"/> to try again; <see langword=\"false\"/> to give up and skip all symbols of this library</returns>",
      .line "/// <remarks>Rethrows <paramref name=\"libraryLoadErrorInfo\"/> when present and returns <see langword=\"false\"/> otherwise, unless overridden</remarks>",
      .braced "internal static virtual bool HandleLibraryImportError(string? libraryName, global::System.Runtime.InteropServices.DllImportSearchPath? searchPath, global::System.Runtime.ExceptionServices.ExceptionDispatchInfo? libraryLoadErrorInfo)"
        [.line "libraryLoadErrorInfo?.Throw();",
         .blank,
         .line "return false;"],
      .blank,
      .line "/// <summary>Handles a failed attempt to resolve a symbol of the native library</summary>",
      .line "/// <param name=\"symbolName\">The symbol that failed to resolve</param>",
      .line "/// <param name=\"symbolLoadErrorInfo\">The captured exception, or <see langword=\"null\"/> when <paramref name=\"symbolName\"/> was blank</param>",
      .line "/// <returns><see langword=\"true\"/> to continue with the next symbol; <see langword=\"false\"/> to skip all remaining symbols</returns>",
      .line "/// <remarks>Rethrows <paramref name=\"symbolLoadErrorInfo\"/> when present and returns <see langword=\"true\"/> otherwise, unless overridden</remarks>",
      .braced "internal static virtual bool HandleSymbolImportError(string? symbolName, global::System.Runtime.ExceptionServices.ExceptionDispatchInfo? symbolLoadErrorInfo)"
        [.line "symbolLoadErrorInfo?.Throw();",
         .blank,
         .line "return true;"],
      .blank,
      .line "/// <summary>Called once after the library and all of its symbols were loaded</summary>",
      .line "/// <param name=\"libraryName\">The name the library was loaded with</param>",
      .line "/// <param name=\"searchPath\">The search path the library was loaded with</param>",
      .line "internal static virtual void AfterSuccessfullyLoaded(string libraryName, global::System.Runtime.InteropServices.DllImportSearchPath? searchPath)",
      .line "\x7b \x7d",
      .blank,
      .line internalUse,
      .line UnitText.methodImpl,
      .line hiddenFromEditors,
      .block "internal static (string? libraryName, global::System.Runtime.InteropServices.DllImportSearchPath? searchPath) GetLibraryNameAndSearchPath<TLibrary>()"
        [.line "where TLibrary : notnull, INativeImportLibrary",
         .line "=> TLibrary.GetLibraryNameAndSearchPath();",
         .blank]
        none,
      .line internalUse,
      .line UnitText.methodImpl,
      .line hiddenFromEditors,
      .block "internal static bool HandleLibraryImportError<TLibrary>(string? libraryName, global::System.Runtime.InteropServices.DllImportSearchPath? searchPath, global::System.Runtime.ExceptionServices.ExceptionDispatchInfo? libraryLoadErrorInfo)"
        [.line "where TLibrary : notnull, INativeImportLibrary",
         .line "=> TLibrary.HandleLibraryImportError(libraryName, searchPath, libraryLoadErrorInfo);",
         .blank]
        none,
      .line internalUse,
      .line UnitText.methodImpl,
      .line hiddenFromEditors,
      .block "internal static bool HandleSymbolImportError<TLibrary>(string? symbolName, global::System.Runtime.ExceptionServices.ExceptionDispatchInfo? symbolLoadErrorInfo)"
        [.line "where TLibrary : notnull, INativeImportLibrary",
         .line "=> TLibrary.HandleSymbolImportError(symbolName, symbolLoadErrorInfo);",
         .blank]
        none,
      .line internalUse,
      .line UnitText.methodImpl,
      .line hiddenFromEditors,
      .block "internal static void AfterSuccessfullyLoaded<TLibrary>(string libraryName, global::System.Runtime.InteropServices.DllImportSearchPath? searchPath)"
        [.line "where TLibrary : notnull, INativeImportLibrary",
         .line "=> TLibrary.AfterSuccessfullyLoaded(libraryName, searchPath);"]
        none]]

/-- The interface of conditions. -/
def conditionInterface : List Fragment :=
  [.line "/// <summary>Decides whether conditionally imported symbols and functions are resolved</summary>",
   .braced "internal interface INativeImportCondition"
     [.line "/// <summary>Evaluates the condition</summary>",
      .line "/// <returns><see langword=\"true\"/> if the gated symbols should be resolved</returns>",
      .line "internal static abstract bool Evaluate();",
      .blank,
      .line internalUse,
      .line hiddenFromEditors,
      .block "private static class _Cached<TCondition>"
        [.line "where TCondition : notnull, INativeImportCondition"]
        none,
      .block "\x7b"
        [.line "private static bool? _Result;",
         .blank,
         .braced "internal static bool Result"
           [.line UnitText.methodImpl,
            .line "get => _Result ??= TCondition.Evaluate();"]]
        (some "\x7d"),
      .blank,
      .line internalUse,
      .line UnitText.methodImpl,
      .line hiddenFromEditors,
      .block "internal static bool Evaluate<TCondition>()"
        [.line "where TCondition : notnull, INativeImportCondition",
         .line "=> _Cached<TCondition>.Result;"]
        none]]

/-- The attribute of unconditional symbols. -/
def symbolAttribute : List Fragment :=
  [.line "/// <summary>Marks a method as an accessor to an imported native symbol</summary>",
   .line "/// <param name=\"symbolName\"><inheritdoc cref=\"SymbolName\" path=\"/value\"/></param>",
   .line "/// <typeparam name=\"TLibrary\">The native library the symbol is imported from</typeparam>",
   .line "[global::System.AttributeUsage(global::System.AttributeTargets.Method, AllowMultiple = false, Inherited = false)]",
   .block "internal sealed class NativeImportSymbolAttribute<TLibrary>(string? symbolName = default) : global::System.Attribute"
     [.line "where TLibrary : notnull, INativeImportLibrary"]
     none,
   .block "\x7b"
     [.line "/// <summary>Gets the name of the imported symbol</summary>",
      .line "/// <value>The symbol name, or <see langword=\"null\"/> to use the target method's name</value>",
      .line "public string? SymbolName => symbolName;",
      .blank,
      .line "/// <summary>Gets or initializes the kind of access</summary>",
      .line "public NativeImportSymbolKind Kind \x7b get; init; \x7d = NativeImportSymbolKind.Auto;"]
     (some "\x7d")]

/-- The attribute of conditional symbols. -/
def conditionalSymbolAttribute : List Fragment :=
  [.line "/// <summary>Marks a method as an accessor to a conditionally imported native symbol</summary>",
   .line "/// <param name=\"symbolName\"><inheritdoc cref=\"SymbolName\" path=\"/value\"/></param>",
   .line "/// <typeparam name=\"TLibrary\">The native library the symbol is imported from</typeparam>",
   .line "/// <typeparam name=\"TCondition\">The condition gating the import</typeparam>",
   .line "/// <remarks>Calling the method while the condition evaluates to <see langword=\"false\"/> is undefined behavior</remarks>",
   .line "[global::System.AttributeUsage(global::System.AttributeTargets.Method, AllowMultiple = false, Inherited = false)]",
   .block "internal sealed class NativeImportSymbolAttribute<TLibrary, TCondition>(string? symbolName = default) : global::System.Attribute"
     [.line "where TLibrary : notnull, INativeImportLibrary",
      .line "where TCondition : notnull, INativeImportCondition"]
     none,
   .block "\x7b"
     [.line "/// <summary>Gets the name of the imported symbol</summary>",
      .line "/// <value>The symbol name, or <see langword=\"null\"/> to use the target method's name</value>",
      .line "public string? SymbolName => symbolName;",
      .blank,
      .line "/// <summary>Gets or initializes the kind of access</summary>",
      .line "public NativeImportSymbolKind Kind \x7b get; init; \x7d = NativeImportSymbolKind.Auto;"]
     (some "\x7d")]

/-- The attribute of unconditional functions. -/
def functionAttribute : List Fragment :=
  [.line "/// <summary>Marks a method as the entry point of an imported native function</summary>",
   .line "/// <param name=\"symbolName\"><inheritdoc cref=\"SymbolName\" path=\"/value\"/></param>",
   .line "/// <typeparam name=\"TLibrary\">The native library the function is imported from</typeparam>",
   .line "[global::System.AttributeUsage(global::System.AttributeTargets.Method, AllowMultiple = false, Inherited = false)]",
   .block "internal sealed class NativeImportFunctionAttribute<TLibrary>(string? symbolName = default) : global::System.Attribute"
     [.line "where TLibrary : notnull, INativeImportLibrary"]
     none,
   .block "\x7b"
     [.line "/// <summary>Gets the name of the imported function</summary>",
      .line "/// <value>The symbol name, or <see langword=\"null\"/> to use the target method's name</value>",
      .line "public string? SymbolName => symbolName;",
      .blank,
      .line "/// <summary>Gets or initializes the calling convention types of the function</summary>",
      .line "/// <value>Calling convention types; the platform default is used when omitted or empty</value>",
      .line "public global::System.Type[]? CallConvs \x7b get; init; \x7d = null;"]
     (some "\x7d")]

/-- The attribute of conditional functions. -/
def conditionalFunctionAttribute : List Fragment :=
  [.line "/// <summary>Marks a method as the entry point of a conditionally imported native function</summary>",
   .line "/// <param name=\"symbolName\"><inheritdoc cref=\"SymbolName\" path=\"/value\"/></param>",
   .line "/// <typeparam name=\"TLibrary\">The native library the function is imported from</typeparam>",
   .line "/// <typeparam name=\"TCondition\">The condition gating the import</typeparam>",
   .line "/// <remarks>Calling the method while the condition evaluates to <see langword=\"false\"/> is undefined behavior</remarks>",
   .line "[global::System.AttributeUsage(global::System.AttributeTargets.Method, AllowMultiple = false, Inherited = false)]",
   .block "internal sealed class NativeImportFunctionAttribute<TLibrary, TCondition>(string? symbolName = default) : global::System.Attribute"
     [.line "where TLibrary : notnull, INativeImportLibrary",
      .line "where TCondition : notnull, INativeImportCondition"]
     none,
   .block "\x7b"
     [.line "/// <summary>Gets the name of the imported function</summary>",
      .line "/// <value>The symbol name, or <see langword=\"null\"/> to use the target method's name</value>",
      .line "public string? SymbolName => symbolName;",
      .blank,
      .line "/// <summary>Gets or initializes the calling convention types of the function</summary>",
      .line "/// <value>Calling convention types; the platform default is used when omitted or empty</value>",
      .line "public global::System.Type[]? CallConvs \x7b get; init; \x7d = null;"]
     (some "\x7d")]

/-- The enumeration of cultures. -/
def cultureEnum : List Fragment :=
  [.line "/// <summary>Culture used to evaluate a <see cref=\"FormattedConstantAttribute\">formatted constant</see></summary>",
   .braced "internal enum FormatCulture"
     [.line "/// <summary>Formats without an explicit culture</summary>",
      .line "Default = 0,",
      .blank,
      .line "/// <summary>Formats with <see cref=\"global::System.Globalization.CultureInfo.InvariantCulture\"/></summary>",
      .line "Invariant = 1"]]

/-- The attribute of constants. -/
def constantAttribute : List Fragment :=
  [.line "/// <summary>Marks a static partial method or get-only property whose value is formatted at compile time</summary>",
   .line "/// <param name=\"format\">The composite format string</param>",
   .line "/// <param name=\"args\">The arguments substituted into the format items</param>",
   .line "/// <remarks>",
   .line "/// <para>The generated implementation returns the formatted result as a literal.</para>",
   .line "/// <para>",
   .line "/// Supported return types are <see cref=\"string\"/>, <c>string?</c>,",
   .line "/// <see cref=\"global::System.ReadOnlySpan\x7bT\x7d\">ReadOnlySpan</see>&lt;<see cref=\"char\"/>&gt; and",
   .line "/// <see cref=\"global::System.ReadOnlySpan\x7bT\x7d\">ReadOnlySpan</see>&lt;<see cref=\"byte\"/>&gt; (UTF-8).",
   .line "/// An empty result is returned as <see cref=\"string.Empty\"/> or <c>[]</c>.",
   .line "/// </para>",
   .line "/// </remarks>",
   .line "/// <example>",
   .line "/// <code>",
   .line "/// [FormattedConstant(\"Hello, \x7b0\x7d!\", \"World\")]",
   .line "/// static partial string Greeting(); // \"Hello, World!\"",
   .line "///",
   .line "/// [FormattedConstant(\"\x7b0:N2\x7d\", 1234.5, Culture = FormatCulture.Invariant)]",
   .line "/// static partial ReadOnlySpan&lt;byte&gt; Amount(); // \"1,234.50\"u8",
   .line "/// </code>",
   .line "/// </example>",
   .line "[global::System.AttributeUsage(global::System.AttributeTargets.Method | global::System.AttributeTargets.Property, AllowMultiple = false, Inherited = false)]",
   .braced "internal sealed class FormattedConstantAttribute(string format, params object?[] args) : global::System.Attribute"
     [.line "/// <summary>Gets the composite format string</summary>",
      .line "public string Format \x7b get; \x7d = format;",
      .blank,
      .line "/// <summary>Gets the format arguments</summary>",
      .line "public object?[] Args \x7b get; \x7d = args;",
      .blank,
      .line "/// <summary>Gets or initializes the culture used for formatting</summary>",
      .line "public FormatCulture Culture \x7b get; init; \x7d = FormatCulture.Default;"]]

/-- A unit of declarations with blank lines between them. -/
def unitText (markerNamespace : String) (declarations : List (List Fragment)) : String :=
  UnitText.page <|
    namespaceLine markerNamespace :: declarations.flatMap (.blank :: ·)

/-- The unit with the types for imports. -/
def imports (markerNamespace : String) : String :=
  unitText markerNamespace
    [accessEnum, libraryInterface, conditionInterface, symbolAttribute, conditionalSymbolAttribute,
     functionAttribute, conditionalFunctionAttribute]

/-- The unit with the types for constants. -/
def constants (markerNamespace : String) : String :=
  unitText markerNamespace [cultureEnum, constantAttribute]

end MarkerUnit
end NativeBindings
